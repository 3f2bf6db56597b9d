import ModuleScaffold.Proofs.Denotation.Units
import Mathlib.Algebra.Group.Nat.Defs
import Mathlib.Data.List.Chain

/-!
# Escapes in quoted texts

The grammar of the language cuts the inside of a text in quotes into *parts*: a character that
stands for itself, or a backslash with all that belongs to it. What a part stands for are code units
(`ModuleScaffold.Text.StringPart.units`); what is kept of it are characters
(`ModuleScaffold.Text.StringPart.kept`). A text in strict code has no octal escapes, so the only
digit behind a backslash is the zero of the null character.

The reader of escapes goes wrong at two kinds of parts only. An escape for a surrogate is no
character by itself, so it is kept as it was written, even if it makes up a character together with
the escape next to it; and the end of a line behind a backslash is kept unless it is a line feed.
Both kinds leave more units than they should, and no part leaves fewer, so what goes wrong at one
part is never made good at another: that is why the condition of
`ModuleScaffold.Text.unescape_spelled_iff` is exact.

Main statements:

* `ModuleScaffold.Text.unitsFrom_spelled`, `ModuleScaffold.Text.unescape_spelled` – **what the
  inside of a quoted text stands for, and what is kept of it, is put together from its parts**;
* `ModuleScaffold.Text.unescape_spelled_iff` – **a quoted text is read as what it stands for exactly
  if no escape in it is for a surrogate and only line feeds are escaped ends of lines**.
-/

namespace ModuleScaffold

namespace Text

/-! ### The parts of a quoted text -/

/-- The ends of lines in source text. -/
inductive LineEnd
  /-- A line feed. -/
  | lineFeed
  /-- A carriage return. -/
  | carriageReturn
  /-- A carriage return with a line feed behind it. -/
  | both
  /-- A line separator. -/
  | lineSeparator
  /-- A paragraph separator. -/
  | paragraphSeparator
  deriving DecidableEq

/-- The end of a line as it is written. -/
def LineEnd.text : LineEnd → List Char
  | lineFeed => ['\n']
  | carriageReturn => ['\r']
  | both => ['\r', '\n']
  | lineSeparator => ['\u2028']
  | paragraphSeparator => ['\u2029']

/-- What the inside of a quoted text is made of. -/
inductive StringPart
  /-- A character that stands for itself. -/
  | plain (c : Char)
  /-- A backslash and one character. -/
  | single (c : Char)
  /-- The escape with two digits. -/
  | two (a b : Char)
  /-- The escape with four digits. -/
  | four (a b c d : Char)
  /-- The escape with digits in braces. -/
  | braced (digits : List Char)
  /-- A backslash in front of the end of a line. -/
  | continued (lineEnd : LineEnd)
  deriving DecidableEq

/-- The number that hexadecimal digits write. -/
def hexValue (digits : List Char) : ℕ :=
  (readNumber 16 digits).getD 0

/-- Whether a code unit is half of a character. -/
def isSurrogate (unit : ℕ) : Bool :=
  0xD800 ≤ unit && unit ≤ 0xDFFF

namespace StringPart

/-- The part as it is written. -/
def text : StringPart → List Char
  | plain c => [c]
  | single c => ['\\', c]
  | two a b => ['\\', 'x', a, b]
  | four a b c d => ['\\', 'u', a, b, c, d]
  | braced digits => '\\' :: 'u' :: '\x7b' :: (digits ++ ['\x7d'])
  | continued lineEnd => '\\' :: lineEnd.text

/-- The code units that the part stands for. -/
def units : StringPart → List ℕ
  | plain c => unitsOf c.toNat
  | single c => if c = '0' then [0] else unitsOf (singleEscape c)
  | two a b => [hexValue [a, b]]
  | four a b c d => [hexValue [a, b, c, d]]
  | braced digits => unitsOf (hexValue digits)
  | continued _ => []

/-- Whether the part may stand in a text between two marks. -/
def isValid (mark : Char) : StringPart → Bool
  | plain c => c != mark && c != '\\' && c != '\n' && c != '\r'
  | single c => c == '0' || ! (c.isDigit || c == 'x' || c == 'u' || Source.endsLine c)
  | two a b => [a, b].all (isDigitOf 16)
  | four a b c d => [a, b, c, d].all (isDigitOf 16)
  | braced digits => ! digits.isEmpty && digits.all (isDigitOf 16) && hexValue digits < 0x110000
  | continued _ => true

/-- Whether a part may stand in front of another one: no digit follows the null character. -/
def mayPrecede : StringPart → StringPart → Bool
  | single c, plain d => ! (c == '0' && d.isDigit)
  | _, _ => true

/-- What is kept of the part. -/
def kept : StringPart → List Char
  | plain c => [c]
  | single c => shortEscape c
  | two a b => resolved 'x' [a, b]
  | four a b c d => resolved 'u' [a, b, c, d]
  | braced digits => resolved 'u' digits
  | continued lineEnd => if lineEnd = .lineFeed then [] else lineEnd.text

/-- Whether the part stands for whole characters and is no other end of a line than a line feed. -/
def isWhole : StringPart → Bool
  | four a b c d => ! isSurrogate (hexValue [a, b, c, d])
  | braced digits => ! isSurrogate (hexValue digits)
  | continued lineEnd => lineEnd = .lineFeed
  | _ => true

end StringPart

open StringPart (mayPrecede)

/-- Parts one after the other, as they are written. -/
def spelled (parts : List StringPart) : List Char :=
  parts.flatMap StringPart.text

/-- Parts that make up the inside of a text between two marks in strict code. -/
structure IsStringBody (mark : Char) (parts : List StringPart) : Prop where
  /-- Every part may stand there. -/
  valid : ∀ p ∈ parts, p.isValid mark = true
  /-- Every two neighbours may stand side by side. -/
  apart : parts.IsChain fun p q => mayPrecede p q = true

instance (mark : Char) (parts : List StringPart) : Decidable (IsStringBody mark parts) :=
  decidable_of_iff ((∀ p ∈ parts, p.isValid mark = true) ∧
      parts.IsChain fun p q => mayPrecede p q = true)
    ⟨fun h => ⟨h.1, h.2⟩, fun h => ⟨h.valid, h.apart⟩⟩

variable {mark : Char} {part : StringPart} {parts : List StringPart} {digits rest : List Char}

theorem spelled_cons (part : StringPart) (parts : List StringPart) :
    spelled (part :: parts) = part.text ++ spelled parts := rfl

theorem IsStringBody.head (h : IsStringBody mark (part :: parts)) : part.isValid mark = true :=
  h.valid part List.mem_cons_self

theorem IsStringBody.tail (h : IsStringBody mark (part :: parts)) : IsStringBody mark parts :=
  ⟨fun p hp => h.valid p (List.mem_cons_of_mem _ hp), h.apart.tail⟩

/-! ### Digits -/

/-- Digits write a number with as many digits. -/
theorem exists_numberFrom (h : ∀ d ∈ digits, isDigitOf 16 d = true) (high : ℕ) :
    ∃ n, numberFrom 16 high digits = some n ∧ n < (high + 1) * 16 ^ digits.length := by
  induction digits generalizing high with
  | nil => exact ⟨high, rfl, by simp⟩
  | cons d digits ih =>
    obtain ⟨hd, hdigits⟩ := List.forall_mem_cons.1 h
    rw [isDigitOf] at hd
    split at hd
    · next v hv =>
      have hlt : v < 16 := of_decide_eq_true hd
      obtain ⟨n, hn, hbound⟩ := ih hdigits (high * 16 + v)
      refine ⟨n, by rw [numberFrom, hv]; simpa only [if_pos hlt] using hn, ?_⟩
      calc n < (high * 16 + v + 1) * 16 ^ digits.length := hbound
        _ ≤ (high + 1) * 16 * 16 ^ digits.length := Nat.mul_le_mul_right _ (by omega)
        _ = (high + 1) * 16 ^ (d :: digits).length := by
          rw [List.length_cons, Nat.pow_succ', Nat.mul_assoc]
    · exact absurd hd Bool.false_ne_true

theorem readNumber_hexDigits (hne : digits ≠ []) (h : ∀ d ∈ digits, isDigitOf 16 d = true) :
    readNumber 16 digits = some (hexValue digits) ∧ hexValue digits < 16 ^ digits.length := by
  obtain ⟨n, hn, hbound⟩ := exists_numberFrom h 0
  have hread : readNumber 16 digits = some n := by
    rw [readNumber, if_neg (by simpa using hne), hn]
  rw [hexValue, hread, Option.getD_some]
  exact ⟨rfl, by simpa using hbound⟩

theorem isDigitOf_eight {c : Char} (h : c.isDigit = false) : isDigitOf 8 c = false := by
  have hten : isDigitOf 10 c = false := by rw [Source.isDigitOf_ten, h]
  rw [isDigitOf] at hten ⊢
  split
  · next v hv =>
    rw [hv] at hten
    have : ¬v < 10 := of_decide_eq_false hten
    exact decide_eq_false (by omega)
  · rfl

theorem ne_of_isHexDigit {c d : Char} (hc : isDigitOf 16 c = true) (hd : isDigitOf 16 d = false) :
    c ≠ d := by
  rintro rfl
  rw [hc] at hd
  exact absurd hd.symm Bool.false_ne_true

/-! ### What the parts stand for -/

theorem unitsFrom_pending (front rest : List Char) :
    unitsFrom front.length (front ++ rest) = unitsFrom 0 rest := by
  induction front with
  | nil => rfl
  | cons c front ih => exact ih

theorem escapeUnits_null (h : ∀ c ∈ rest.head?, c.isDigit = false) :
    escapeUnits ('0' :: rest) = some ([0], 1) := by
  have hzero : isDigitOf 8 '0' = true := rfl
  have hoctal : octalDigits ('0' :: rest) = ['0'] := by
    rcases rest with _ | ⟨c, rest⟩
    · rfl
    · have hc : isDigitOf 8 c = false := isDigitOf_eight (h c rfl)
      have hdigits : (('0' :: c :: rest).take 3).takeWhile (isDigitOf 8) = ['0'] := by
        rw [List.take_succ_cons, List.take_succ_cons, List.takeWhile_cons_of_pos hzero,
          List.takeWhile_cons_of_neg (by rw [hc]; exact Bool.false_ne_true)]
      rw [octalDigits, hdigits]
      rfl
  rw [escapeUnits, hoctal]
  · rfl
  all_goals simp

theorem escapeUnits_single {c : Char} (hnull : c ≠ '0')
    (hc : (StringPart.single c).isValid mark = true) :
    escapeUnits (c :: rest) = some (unitsOf (singleEscape c), 1) := by
  simp only [StringPart.isValid, Bool.or_eq_true, beq_iff_eq, hnull, false_or, Bool.not_eq_true',
    Bool.or_eq_false_iff, beq_eq_false_iff_ne] at hc
  obtain ⟨⟨⟨hdigit, hx⟩, hu⟩, hline⟩ := hc
  rw [escapeUnits, if_neg (by simp [hx, hu]), if_neg (by simp [hline]),
    if_neg (by simp [isDigitOf_eight hdigit])]
  · exact fun _ _ _ h => absurd h hx
  · exact fun _ h => absurd h hu
  · exact fun _ _ _ _ _ h => absurd h hu
  · rintro _ rfl
    exact absurd hline (by decide)

theorem escapeUnits_braced (hne : digits ≠ []) (h : ∀ d ∈ digits, isDigitOf 16 d = true)
    (hlt : hexValue digits < 0x110000) :
    escapeUnits ('u' :: '\x7b' :: (digits ++ '\x7d' :: rest)) =
      some (unitsOf (hexValue digits), digits.length + 3) := by
  have hbrace : isDigitOf 16 '\x7d' = false := rfl
  have htake : (digits ++ '\x7d' :: rest).takeWhile (isDigitOf 16) = digits := by
    rw [List.takeWhile_append_of_pos h,
      List.takeWhile_cons_of_neg (by rw [hbrace]; exact Bool.false_ne_true), List.append_nil]
  rw [escapeUnits, htake, List.drop_left, (readNumber_hexDigits hne h).1]
  simp only [if_pos hlt]

/-- The end of a line behind a backslash stands for nothing. -/
theorem escapeUnits_lineEnd (lineEnd : LineEnd) (h : rest.head? ≠ some '\n') :
    escapeUnits (lineEnd.text ++ rest) = some ([], lineEnd.text.length) := by
  rcases lineEnd with _ | _ | _ | _ | _
  · rfl
  · -- nothing but a carriage return belongs to the escape, since no line feed is behind it
    rw [LineEnd.text, List.singleton_append, escapeUnits]
    · rfl
    · simp
    · simp
    · simp
    · rintro _ - rfl
      exact absurd rfl h
  · rfl
  · rfl
  · rfl

/-- What may stand behind a part: no line feed, and no digit behind the null character. -/
theorem IsStringBody.head?_spelled (h : IsStringBody mark (part :: parts)) :
    (spelled parts).head? ≠ some '\n' ∧
      (part = .single '0' → ∀ c ∈ (spelled parts).head?, c.isDigit = false) := by
  rcases parts with _ | ⟨q, parts⟩
  · exact ⟨by simp [spelled], fun _ c hc => by simp [spelled] at hc⟩
  · have hq : q.isValid mark = true := h.tail.head
    have hpq : mayPrecede part q = true := (List.isChain_cons_cons.1 h.apart).1
    rcases q with c | _ | _ | _ | _ | _
    · refine ⟨?_, ?_⟩
      · rintro hc
        obtain rfl : c = '\n' := Option.some.inj hc
        simp [StringPart.isValid] at hq
      · rintro rfl d hd
        obtain rfl : c = d := Option.some.inj hd
        simpa [mayPrecede] using hpq
    all_goals
      refine ⟨by simp [spelled, StringPart.text], fun _ c hc => ?_⟩
      obtain rfl : '\\' = c := Option.some.inj hc
      rfl

/-- What a part stands for, in front of whatever may stand behind it. -/
theorem unitsFrom_text (h : part.isValid mark = true) (hline : rest.head? ≠ some '\n')
    (hnull : part = .single '0' → ∀ c ∈ rest.head?, c.isDigit = false) :
    unitsFrom 0 (part.text ++ rest) = (unitsFrom 0 rest).map (part.units ++ ·) := by
  -- behind a backslash, an escape of a known length is read
  have hescape : ∀ tail : List Char, part.text = '\\' :: tail →
      escapeUnits (tail ++ rest) = some (part.units, tail.length) →
      unitsFrom 0 (part.text ++ rest) = (unitsFrom 0 rest).map (part.units ++ ·) := by
    intro tail htext hunits
    rw [htext, List.cons_append, unitsFrom, if_pos rfl, hunits]
    simp only [unitsFrom_pending]
  rcases part with c | c | ⟨a, b⟩ | ⟨a, b, c, d⟩ | digits | lineEnd
  · simp only [StringPart.isValid, Bool.and_eq_true, bne_iff_ne] at h
    exact unitsFrom_cons h.1.1.2 rest
  · refine hescape [c] rfl ?_
    rw [List.singleton_append, StringPart.units]
    split
    · next hzero =>
      subst hzero
      exact escapeUnits_null (hnull rfl)
    · next hzero => exact escapeUnits_single hzero h
  · refine hescape ['x', a, b] rfl ?_
    simp only [StringPart.isValid, List.all_eq_true] at h
    have hread := (readNumber_hexDigits (by simp) h).1
    rw [List.cons_append, List.cons_append, List.cons_append, escapeUnits, hread]
    rfl
  · refine hescape ['u', a, b, c, d] rfl ?_
    simp only [StringPart.isValid, List.all_eq_true] at h
    have hread := (readNumber_hexDigits (by simp) h).1
    rw [List.cons_append, List.cons_append, List.cons_append, List.cons_append, List.cons_append,
      escapeUnits, hread]
    · rfl
    · exact fun hbrace => ne_of_isHexDigit (h a List.mem_cons_self) rfl hbrace
  · refine hescape ('u' :: '\x7b' :: (digits ++ ['\x7d'])) rfl ?_
    simp only [StringPart.isValid, Bool.and_eq_true, Bool.not_eq_true', decide_eq_true_eq,
      List.all_eq_true, List.isEmpty_eq_false_iff] at h
    simpa [StringPart.units] using escapeUnits_braced h.1.1 h.1.2 h.2
  · exact hescape lineEnd.text rfl (escapeUnits_lineEnd lineEnd hline)

/-- **What the inside of a quoted text stands for is put together from its parts.** -/
theorem unitsFrom_spelled (h : IsStringBody mark parts) :
    unitsFrom 0 (spelled parts) = some (parts.flatMap StringPart.units) := by
  induction parts with
  | nil => rfl
  | cons part parts ih =>
    obtain ⟨hline, hnull⟩ := h.head?_spelled
    rw [spelled_cons, unitsFrom_text h.head hline hnull, ih h.tail]
    rfl

/-! ### What is kept of the parts -/

theorem unescapeFrom_braced (digits read rest : List Char) (h : '\x7d' ∉ digits) :
    unescapeFrom (.braced read) (digits ++ '\x7d' :: rest) =
      resolved 'u' (read ++ digits) ++ unescapeFrom .plain rest := by
  induction digits generalizing read with
  | nil => rw [List.nil_append, unescapeFrom, if_pos rfl, List.append_nil]
  | cons d digits ih =>
    rw [List.mem_cons, not_or] at h
    rw [List.cons_append, unescapeFrom, if_neg (Ne.symm h.1), ih _ h.2, List.append_assoc,
      List.singleton_append]

/-- What is kept of a part, whatever is behind it. -/
theorem unescapeFrom_text (h : part.isValid mark = true) (rest : List Char) :
    unescapeFrom .plain (part.text ++ rest) = part.kept ++ unescapeFrom .plain rest := by
  rcases part with c | c | ⟨a, b⟩ | ⟨a, b, c, d⟩ | digits | lineEnd
  · simp only [StringPart.isValid, Bool.and_eq_true, bne_iff_ne] at h
    rw [StringPart.text, List.singleton_append, unescapeFrom, if_neg h.1.1.2]
    rfl
  · have hx : c ≠ 'x' := by
      rintro rfl
      exact absurd h (by simp [StringPart.isValid])
    have hu : c ≠ 'u' := by
      rintro rfl
      exact absurd h (by simp [StringPart.isValid])
    rw [StringPart.text, List.cons_append, List.singleton_append, unescapeFrom, if_pos rfl,
      unescapeFrom, if_neg hx, if_neg hu]
    rfl
  · rfl
  · simp only [StringPart.isValid, List.all_eq_true] at h
    have hbrace : a ≠ '\x7b' := ne_of_isHexDigit (h a List.mem_cons_self) rfl
    have hmarked : ¬(decide (4 = 4) && decide (a = '\x7b')) = true := by simp [hbrace]
    change unescapeFrom (.digits 'u' [] 4) (a :: b :: c :: d :: rest) = _
    rw [unescapeFrom, if_neg hmarked]
    rfl
  · simp only [StringPart.isValid, Bool.and_eq_true, List.all_eq_true] at h
    have hbrace : '\x7d' ∉ digits := fun hmem => ne_of_isHexDigit (h.1.2 _ hmem) rfl rfl
    have hall := unescapeFrom_braced digits [] rest hbrace
    rw [StringPart.text, List.cons_append, List.cons_append, List.cons_append, List.append_assoc]
    exact hall
  · rcases lineEnd with _ | _ | _ | _ | _ <;> rfl

/-- **What is kept of the inside of a quoted text is put together from its parts.** -/
theorem unescape_spelled (h : ∀ p ∈ parts, p.isValid mark = true) :
    unescape (spelled parts) = parts.flatMap StringPart.kept := by
  induction parts with
  | nil => rfl
  | cons part parts ih =>
    obtain ⟨hpart, hparts⟩ := List.forall_mem_cons.1 h
    rw [spelled_cons, unescape, unescapeFrom_text hpart]
    exact congrArg (part.kept ++ ·) (ih hparts)

/-! ### Parts that are kept as what they stand for -/

theorem length_le_units (cs : List Char) : cs.length ≤ (Text.units cs).length := by
  induction cs with
  | nil => exact Nat.le_refl 0
  | cons c cs ih =>
    have hc : 1 ≤ (unitsOf c.toNat).length := by
      rw [unitsOf]
      split <;> simp
    rw [units_cons, List.length_append, List.length_cons]
    omega

/-- Digits of a code point are kept as the character, but those of a surrogate as they are. -/
theorem units_resolved (markOf : Char) (hne : digits ≠ [])
    (h : ∀ d ∈ digits, isDigitOf 16 d = true) (hlt : hexValue digits < 0x110000) :
    (isSurrogate (hexValue digits) = false ∧
        Text.units (resolved markOf digits) = unitsOf (hexValue digits)) ∨
      (isSurrogate (hexValue digits) = true ∧
        (unitsOf (hexValue digits)).length < (Text.units (resolved markOf digits)).length) := by
  have hread := (readNumber_hexDigits hne h).1
  by_cases hvalid : (hexValue digits).isValidChar
  · have hchar : (Char.ofNat (hexValue digits)).toNat = hexValue digits := by
      rw [Char.ofNat, dif_pos hvalid]
      rfl
    have hwhole : isSurrogate (hexValue digits) = false := by
      rw [isSurrogate, Bool.and_eq_false_iff, decide_eq_false_iff_not, decide_eq_false_iff_not]
      rcases hvalid with hlow | ⟨hhigh, -⟩ <;> omega
    refine .inl ⟨hwhole, ?_⟩
    rw [resolved, codePoint, hread]
    simp only [if_pos hvalid, units_cons, hchar, units_nil, List.append_nil]
  · have hhalf : 0xD800 ≤ hexValue digits ∧ hexValue digits ≤ 0xDFFF := by
      simp only [Nat.isValidChar] at hvalid
      omega
    refine .inr ⟨by simpa [isSurrogate] using hhalf, ?_⟩
    have hunit : (unitsOf (hexValue digits)).length = 1 := by
      rw [unitsOf, if_pos (by omega)]
      rfl
    have hkept : resolved markOf digits = '\\' :: markOf :: digits := by
      rw [resolved, codePoint, hread]
      simp only [if_neg hvalid]
    have hlength := length_le_units ('\\' :: markOf :: digits)
    rw [hunit, hkept]
    simp only [List.length_cons] at hlength ⊢
    omega

theorem units_shortEscape {c : Char} (h : c ≠ '\n') :
    Text.units (shortEscape c) = (StringPart.single c).units := by
  have hnull : ∀ d : Char, d ≠ '0' → (StringPart.single d).units = unitsOf (singleEscape d) :=
    fun d hd => if_neg hd
  rw [shortEscape]
  split
  · next hc => subst hc; rfl
  split
  · next hc => subst hc; rfl
  split
  · next hc => subst hc; rfl
  split
  · next hc => subst hc; rfl
  split
  · next hc => subst hc; rfl
  split
  · next hc => subst hc; rfl
  split
  · next hc => subst hc; rfl
  · next hn ht hr hb hf hv hzero =>
    rw [hnull c hzero, singleEscape, units_cons, units_nil, List.append_nil]
    all_goals assumption

/-- A part is kept as what it stands for if it is whole, and as more than that if it is not. -/
theorem StringPart.units_kept (h : part.isValid mark = true) :
    (part.isWhole = true ∧ Text.units part.kept = part.units) ∨
      (part.isWhole = false ∧ part.units.length < (Text.units part.kept).length) := by
  rcases part with c | c | ⟨a, b⟩ | ⟨a, b, c, d⟩ | digits | lineEnd
  · exact .inl ⟨rfl, List.append_nil _⟩
  · have hline : c ≠ '\n' := by
      rintro rfl
      exact absurd h (by simp [isValid, Source.endsLine])
    exact .inl ⟨rfl, units_shortEscape hline⟩
  · simp only [isValid, List.all_eq_true] at h
    have hlt : hexValue [a, b] < 256 := by simpa using (readNumber_hexDigits (by simp) h).2
    have hunit : unitsOf (hexValue [a, b]) = [hexValue [a, b]] := by rw [unitsOf, if_pos (by omega)]
    rcases units_resolved 'x' (by simp) h (by omega) with ⟨-, hkept⟩ | ⟨hhalf, -⟩
    · exact .inl ⟨rfl, hkept.trans hunit⟩
    · rw [isSurrogate, Bool.and_eq_true, decide_eq_true_eq] at hhalf
      omega
  · simp only [isValid, List.all_eq_true] at h
    have hlt : hexValue [a, b, c, d] < 65536 := by
      simpa using (readNumber_hexDigits (by simp) h).2
    have hunit : unitsOf (hexValue [a, b, c, d]) = [hexValue [a, b, c, d]] := by
      rw [unitsOf, if_pos hlt]
    have hkept := units_resolved 'u' (by simp) h (by omega)
    rw [hunit] at hkept
    simpa [isWhole, units, kept] using hkept
  · simp only [isValid, Bool.and_eq_true, Bool.not_eq_true', decide_eq_true_eq,
      List.all_eq_true, List.isEmpty_eq_false_iff] at h
    simpa [isWhole, units, kept] using units_resolved 'u' h.1.1 h.1.2 h.2
  · rcases lineEnd with _ | _ | _ | _ | _ <;> decide

/-- No part is kept as less than what it stands for, and all are kept as what they stand for if they
are whole. -/
theorem units_flatMap_kept (h : ∀ p ∈ parts, p.isValid mark = true) :
    (parts.flatMap StringPart.units).length ≤
        (Text.units (parts.flatMap StringPart.kept)).length ∧
      (Text.units (parts.flatMap StringPart.kept) = parts.flatMap StringPart.units ↔
        ∀ p ∈ parts, p.isWhole = true) := by
  induction parts with
  | nil => exact ⟨Nat.le_refl 0, iff_of_true rfl fun _ hp => absurd hp List.not_mem_nil⟩
  | cons part parts ih =>
    obtain ⟨hpart, hparts⟩ := List.forall_mem_cons.1 h
    obtain ⟨hle, hiff⟩ := ih hparts
    rw [List.flatMap_cons, List.flatMap_cons, units_append, List.length_append, List.length_append,
      List.forall_mem_cons]
    rcases StringPart.units_kept hpart with ⟨hwhole, hkept⟩ | ⟨hhalf, hlt⟩
    · rw [hkept, List.append_cancel_left_eq, hiff]
      exact ⟨by omega, (and_iff_right hwhole).symm⟩
    · refine ⟨by omega, iff_of_false (fun heq => ?_) fun hall => ?_⟩
      · -- what is too much here cannot be made good by the other parts
        have hlength := congrArg List.length heq
        rw [List.length_append, List.length_append] at hlength
        omega
      · rw [hhalf] at hall
        exact absurd hall.1 Bool.false_ne_true

/-- **A quoted text is read as what it stands for exactly if no escape in it is for a surrogate and
only line feeds are escaped ends of lines.** The inside of the text is made of the given parts, as
the grammar of strict code has them, and what it stands for has no half of a character alone, so
that it is the code units of some text. -/
theorem unescape_spelled_iff (h : IsStringBody mark parts) {text : List Char}
    (hvalue : unitsFrom 0 (spelled parts) = some (Text.units text)) :
    unescape (spelled parts) = text ↔ ∀ p ∈ parts, p.isWhole = true := by
  have hunits : parts.flatMap StringPart.units = Text.units text := by
    rw [unitsFrom_spelled h] at hvalue
    exact Option.some.inj hvalue
  rw [unescape_spelled h.valid, ← (units_flatMap_kept h.valid).2, hunits]
  exact units_injective.eq_iff.symm

/-- Parts of every kind that are read as what they stand for. -/
def wholeParts : List StringPart :=
  [.two '4' '1', .four '0' '0' 'e' '9', .braced ['1', 'F', '6', '0', '0'], .continued .lineFeed,
    .single '0', .plain '\u2028', .single 'n', .single '"']

/-- The condition holds of parts of every kind. -/
theorem unescape_spelled_wholeParts : IsStringBody '"' wholeParts ∧
    unitsFrom 0 (spelled wholeParts) = some (Text.units "Aé😀\x00\u2028\n\"".toList) ∧
      unescape (spelled wholeParts) = "Aé😀\x00\u2028\n\"".toList := by
  have hbody : IsStringBody '"' wholeParts := by decide
  have hvalue :
      unitsFrom 0 (spelled wholeParts) = some (Text.units "Aé😀\x00\u2028\n\"".toList) := by
    decide
  exact ⟨hbody, hvalue, (unescape_spelled_iff hbody hvalue).2 (by decide)⟩

/-- **A pair of escapes for surrogates is kept as it was written**, although it stands for one
character, and so are the ends of lines that continue a line and are no line feeds. -/
theorem unescape_ne_of_surrogates :
    (IsStringBody '"' [.four 'D' '8' '3' 'D', .four 'D' 'E' '0' '0'] ∧
      unitsFrom 0 "\\uD83D\\uDE00".toList = some (Text.units ['😀']) ∧
        unescape "\\uD83D\\uDE00".toList ≠ ['😀']) ∧
    ∀ lineEnd : LineEnd, lineEnd ≠ .lineFeed → IsStringBody '"' [.continued lineEnd] ∧
      unitsFrom 0 ('\\' :: lineEnd.text) = some (Text.units []) ∧
        unescape ('\\' :: lineEnd.text) ≠ [] := by
  refine ⟨by decide, fun lineEnd hne => ?_⟩
  rcases lineEnd with _ | _ | _ | _ | _
  · exact absurd rfl hne
  all_goals decide

end Text

end ModuleScaffold

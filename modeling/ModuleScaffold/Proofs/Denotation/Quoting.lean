import ModuleScaffold.Proofs.Denotation.Escapes

/-!
# Texts in quotes are closed

A text is written in double quotes with some of its characters escaped. What is written is one text
in quotes by the grammar of the language: its inside is made of parts, and none of them is the null
character, in front of which the grammar would have to look at what follows. So it can stand in any
source text. Whoever reads it from its first mark on, and knows no more than that a backslash takes
the character behind it, comes to its last mark first (`ModuleScaffold.Text.behindMark`), whatever
stands behind it; and no character in it ends a line or controls anything.

Main statements:

* `ModuleScaffold.Text.behindMark_spelled` – **a text in quotes ends at the first mark that no
  backslash takes**, whatever its parts are;
* `ModuleScaffold.Text.exists_body_flatMap_escaped` – what is written between the quotes is made of
  parts;
* `ModuleScaffold.Text.quote_closed` – **a quoted text is one closed text on one line, and it means
  the text**.
-/

namespace ModuleScaffold

namespace Text

/-! ### The end of a text in quotes -/

/-- What remains behind the first mark that no backslash takes; the first character is taken by one
if `taken`. -/
def behindMark (mark : Char) : Bool → List Char → Option (List Char)
  | _, [] => none
  | true, _ :: cs => behindMark mark false cs
  | false, c :: cs => if c = mark then some cs else behindMark mark (c = '\\') cs

variable {mark : Char} {part : StringPart} {parts : List StringPart} {rest : List Char}

theorem behindMark_backslash (h : mark ≠ '\\') (c : Char) (rest : List Char) :
    behindMark mark false ('\\' :: c :: rest) = behindMark mark false rest := by
  rw [behindMark, if_neg (Ne.symm h), decide_eq_true rfl, behindMark]

theorem behindMark_cons {c : Char} (hmark : c ≠ mark) (hbackslash : c ≠ '\\') (rest : List Char) :
    behindMark mark false (c :: rest) = behindMark mark false rest := by
  rw [behindMark, if_neg hmark, decide_eq_false hbackslash]

/-- The digits of an escape neither close the text nor take the next character. -/
theorem behindMark_hexDigits (hmark : isQuoteMark mark = true) {digits : List Char}
    (h : ∀ d ∈ digits, isDigitOf 16 d = true) (rest : List Char) :
    behindMark mark false (digits ++ rest) = behindMark mark false rest := by
  induction digits with
  | nil => rfl
  | cons d digits ih =>
    obtain ⟨hd, hdigits⟩ := List.forall_mem_cons.1 h
    have hne : d ≠ mark := by
      simp only [isQuoteMark, Bool.or_eq_true, beq_iff_eq] at hmark
      rcases hmark with (rfl | rfl) | rfl
      all_goals exact ne_of_isHexDigit hd rfl
    rw [List.cons_append, behindMark_cons hne (ne_of_isHexDigit hd rfl), ih hdigits]

/-- No part closes the text, and none takes the character behind it. -/
theorem behindMark_text (hmark : isQuoteMark mark = true) (h : part.isValid mark = true)
    (rest : List Char) :
    behindMark mark false (part.text ++ rest) = behindMark mark false rest := by
  have hraw : ∀ c ∈ ['\\', '\x7b', '\x7d', '\n'], c ≠ mark := by
    simp only [isQuoteMark, Bool.or_eq_true, beq_iff_eq] at hmark
    rcases hmark with (rfl | rfl) | rfl <;> exact forall_mem_of_all (by decide)
  have hbackslash : mark ≠ '\\' := (hraw '\\' (by decide)).symm
  rcases part with c | c | ⟨a, b⟩ | ⟨a, b, c, d⟩ | digits | lineEnd
  · simp only [StringPart.isValid, Bool.and_eq_true, bne_iff_ne] at h
    exact behindMark_cons h.1.1.1 h.1.1.2 rest
  · exact behindMark_backslash hbackslash c rest
  · simp only [StringPart.isValid, List.all_eq_true] at h
    exact (behindMark_backslash hbackslash 'x' _).trans (behindMark_hexDigits hmark h rest)
  · simp only [StringPart.isValid, List.all_eq_true] at h
    exact (behindMark_backslash hbackslash 'u' _).trans (behindMark_hexDigits hmark h rest)
  · simp only [StringPart.isValid, Bool.and_eq_true, List.all_eq_true] at h
    have hbraces : '\x7b' ≠ mark ∧ '\x7d' ≠ mark :=
      ⟨hraw '\x7b' (by decide), hraw '\x7d' (by decide)⟩
    rw [StringPart.text, List.cons_append, List.cons_append, behindMark_backslash hbackslash,
      List.cons_append, behindMark_cons hbraces.1 (by decide), List.append_assoc,
      behindMark_hexDigits hmark h.1.2, List.singleton_append,
      behindMark_cons hbraces.2 (by decide)]
  · rcases lineEnd with _ | _ | _ | _ | _
    case both =>
      refine (behindMark_backslash hbackslash '\r' _).trans ?_
      exact behindMark_cons (hraw '\n' (by decide)) (by decide) rest
    all_goals exact behindMark_backslash hbackslash _ rest

/-- **A text in quotes ends at the first mark that no backslash takes.** -/
theorem behindMark_spelled (hmark : isQuoteMark mark = true)
    (h : ∀ p ∈ parts, p.isValid mark = true) (rest : List Char) :
    behindMark mark false (spelled parts ++ mark :: rest) = some rest := by
  induction parts with
  | nil => rw [spelled, List.flatMap_nil, List.nil_append, behindMark, if_pos rfl]
  | cons part parts ih =>
    obtain ⟨hpart, hparts⟩ := List.forall_mem_cons.1 h
    rw [spelled_cons, List.append_assoc, behindMark_text hmark hpart, ih hparts]

/-! ### What is written between the quotes -/

/-- A character is written as a part that may stand in front of every other part. -/
theorem exists_part_escaped (c : Char) : ∃ part : StringPart, part.text = escaped c ∧
    part.isValid '"' = true ∧ part ≠ .single '0' := by
  by_cases hquote : c = '"'
  · exact ⟨.single '"', by subst hquote; decide⟩
  by_cases hbackslash : c = '\\'
  · exact ⟨.single '\\', by subst hbackslash; decide⟩
  by_cases hfeed : c = '\n'
  · exact ⟨.single 'n', by subst hfeed; decide⟩
  by_cases hreturn : c = '\r'
  · exact ⟨.single 'r', by subst hreturn; decide⟩
  by_cases htab : c = '\t'
  · exact ⟨.single 't', by subst htab; decide⟩
  rw [escaped, if_neg hquote, if_neg hbackslash, if_neg hfeed, if_neg hreturn, if_neg htab]
  split
  · have hdigit : ∀ n, isDigitOf 16 (hexDigit (n % 16)) = true := fun n =>
      isDigitOf_hexDigit (Nat.mod_lt n (by decide))
    refine ⟨.four _ _ _ _, rfl, ?_, StringPart.noConfusion⟩
    simp only [StringPart.isValid, List.all_cons, hdigit, List.all_nil, Bool.and_self]
  · refine ⟨.plain c, rfl, ?_, StringPart.noConfusion⟩
    simp [StringPart.isValid, hquote, hbackslash, hfeed, hreturn]

/-- **What is written between the quotes is made of parts.** -/
theorem exists_body_flatMap_escaped (cs : List Char) :
    ∃ parts, IsStringBody '"' parts ∧ spelled parts = cs.flatMap escaped := by
  induction cs with
  | nil => exact ⟨[], ⟨fun _ hp => absurd hp List.not_mem_nil, .nil⟩, rfl⟩
  | cons c cs ih =>
    obtain ⟨parts, hparts, hspelled⟩ := ih
    obtain ⟨part, htext, hvalid, hnull⟩ := exists_part_escaped c
    refine ⟨part :: parts, ⟨List.forall_mem_cons.2 ⟨hvalid, hparts.valid⟩, ?_⟩, ?_⟩
    · refine List.isChain_cons.2 ⟨fun next _ => ?_, hparts.apart⟩
      cases part with
      | single d =>
        cases next with
        | plain e =>
          have hd : d ≠ '0' := fun hd => hnull (congrArg StringPart.single hd)
          simp [StringPart.mayPrecede, hd]
        | _ => rfl
      | _ => rfl
    · rw [spelled_cons, htext, hspelled, List.flatMap_cons]

/-- What is written for a character neither ends a line nor controls anything. -/
theorem not_isControl_of_mem_escaped {c d : Char} (h : d ∈ escaped c) :
    isControl d = false ∧ Source.endsLine d = false := by
  rw [escaped] at h
  split at h
  · rcases List.mem_pair.1 h with rfl | rfl <;> decide
  split at h
  · rcases List.mem_pair.1 h with rfl | rfl <;> decide
  split at h
  · rcases List.mem_pair.1 h with rfl | rfl <;> decide
  split at h
  · rcases List.mem_pair.1 h with rfl | rfl <;> decide
  split at h
  · rcases List.mem_pair.1 h with rfl | rfl <;> decide
  split at h
  · have hdigit : ∀ n < 16, isControl (hexDigit n) = false ∧
        Source.endsLine (hexDigit n) = false := by
      decide
    simp only [fourHexDigits, List.mem_cons, List.not_mem_nil, or_false] at h
    rcases h with rfl | rfl | rfl | rfl | rfl | rfl
    · decide
    · decide
    all_goals exact hdigit _ (Nat.mod_lt _ (by decide))
  · next hfeed hreturn _ hcontrol =>
    obtain rfl := List.mem_singleton.1 h
    simp only [Bool.or_eq_true, decide_eq_true_eq, not_or, Bool.not_eq_true] at hcontrol
    simp [hcontrol, Source.endsLine, hfeed, hreturn]

/-- **A quoted text is one closed text on one line, and it means the text.** By the grammar of the
language it is a text in double quotes; no character in it ends a line or controls anything; reading
on from its first mark, the first mark that no backslash takes is its last character, whatever
stands behind it; and what is read between the marks is the text that was quoted. -/
theorem quote_closed (text : String) :
    (∃ parts, IsStringBody '"' parts ∧ (quote text).toList = '"' :: (spelled parts ++ ['"'])) ∧
    (∀ c ∈ (quote text).toList, isControl c = false ∧ Source.endsLine c = false) ∧
    (∀ rest, behindMark '"' false ((quote text).toList.tail ++ rest) = some rest) ∧
    unescape (unquoted (quote text).toList) = text.toList := by
  obtain ⟨parts, hbody, hspelled⟩ := exists_body_flatMap_escaped text.toList
  have hquote : (quote text).toList = '"' :: (spelled parts ++ ['"']) := by
    rw [quote, String.toList_ofList, quoteChars, hspelled]
  refine ⟨⟨parts, hbody, hquote⟩, fun c hc => ?_, fun rest => ?_, ?_⟩
  · have hmark : isControl '"' = false ∧ Source.endsLine '"' = false := by decide
    rw [hquote, hspelled, List.mem_cons, List.mem_append, List.mem_singleton] at hc
    rcases hc with rfl | hc | rfl
    · exact hmark
    · obtain ⟨d, -, hd⟩ := List.mem_flatMap.1 hc
      exact not_isControl_of_mem_escaped hd
    · exact hmark
  · rw [hquote, List.tail_cons, List.append_assoc, List.singleton_append]
    exact behindMark_spelled (by decide) hbody.valid rest
  · rw [quote, String.toList_ofList]
    exact unescape_quoteChars text.toList

end Text

end ModuleScaffold

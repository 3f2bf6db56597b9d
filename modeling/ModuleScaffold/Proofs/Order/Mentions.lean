import ModuleScaffold.Proofs.Reading.Lexeme
import ModuleScaffold.Proofs.Text.Spacing
import ModuleScaffold.Source.Middlewares

/-!
# Which names a text mentions

A declaration waits for another one if its text mentions a name of it. A text is made of *runs*, its
longest parts of characters that may stand in an identifier, and a name should be mentioned where it
is a run (`ModuleScaffold.Text.IsRun`).

The scan meets the occurrences of a name from left to right without overlap
(`ModuleScaffold.Text.Meets`). It overlooks no run: an occurrence that it skips begins inside
another one, behind a character of the name, so it is only a part of a run. What it takes for a
mention is more than a run, though. The characters beside an occurrence are asked for ASCII
characters only, so a letter beyond ASCII ends a name for the scan, while the run goes on.

Main statements:

* `ModuleScaffold.Text.mentions_iff_meets` – what is mentioned, by the occurrences that are met;
* `ModuleScaffold.Text.mentions_iff_isRun_of_plain` – **in a text without letters beyond ASCII the
  names that are mentioned are its runs**;
* `ModuleScaffold.Text.mentions_iff_isRun_or_cutOff` – **a name is mentioned if it is a run of the
  text, or if an occurrence of it is cut off a longer run by letters beyond ASCII**, and only then.
-/

namespace ModuleScaffold

namespace Text

variable {c : Char} {name text run front back : List Char} {before : Option Char}

/-! ### The occurrences that the scan meets -/

/-- The scan of a text for a name meets the name between two parts of the text. -/
inductive Meets (name : List Char) : List Char → List Char → List Char → Prop
  /-- The text begins with the name. -/
  | here (back : List Char) : Meets name (name ++ back) [] back
  /-- Behind an occurrence the scan goes on, past all of its characters. -/
  | past {text front back : List Char} : Meets name text front back →
      Meets name (name ++ text) (name ++ front) back
  /-- Where the name does not occur the scan goes on with the next character. -/
  | step {c : Char} {text front back : List Char} : ¬name <+: c :: text →
      Meets name text front back → Meets name (c :: text) (c :: front) back

theorem Meets.text_eq (h : Meets name text front back) : text = front ++ (name ++ back) := by
  induction h with
  | here back => rfl
  | past _ ih => rw [List.append_assoc, ← ih]
  | step _ _ ih => rw [List.cons_append, ← ih]

/-- What follows an occurrence at the start of a text is met past its end. -/
theorem meets_append_iff : Meets name (name ++ text) front back ↔
    front = [] ∧ back = text ∨ ∃ front', front = name ++ front' ∧ Meets name text front' back := by
  constructor
  · intro h
    generalize htext : name ++ text = whole at h
    cases h with
    | here => exact .inl ⟨rfl, (List.append_cancel_left htext).symm⟩
    | @past text' front' _ h =>
      obtain rfl := List.append_cancel_left htext
      exact .inr ⟨front', rfl, h⟩
    | step hnot => exact absurd ⟨text, htext⟩ hnot
  · rintro (⟨rfl, rfl⟩ | ⟨front', rfl, h⟩)
    · exact .here _
    · exact .past h

/-- What is met in a text that does not begin with the name is met behind its first character. -/
theorem meets_cons_iff (hnot : ¬name <+: c :: text) : Meets name (c :: text) front back ↔
    ∃ front', front = c :: front' ∧ Meets name text front' back := by
  constructor
  · intro h
    generalize htext : c :: text = whole at h
    cases h with
    | here back => exact absurd ⟨back, htext.symm⟩ hnot
    | @past text' => exact absurd ⟨text', htext.symm⟩ hnot
    | @step _ _ front' _ _ h =>
      obtain ⟨rfl, rfl⟩ := List.cons.inj htext
      exact ⟨front', rfl, h⟩
  · rintro ⟨front', rfl, h⟩
    exact .step hnot h

/-- An induction along the scan: past an occurrence, or to the next character. -/
theorem scan_induction {motive : List Char → Prop} (hne : name ≠ []) (nil : motive [])
    (past : ∀ text, motive text → motive (name ++ text))
    (step : ∀ c text, ¬name <+: c :: text → motive text → motive (c :: text)) (text : List Char) :
    motive text := by
  induction hn : text.length using Nat.strong_induction_on generalizing text with
  | _ n ih =>
    by_cases hpre : name <+: text
    · obtain ⟨rest, rfl⟩ := hpre
      have hpos := List.length_pos_iff.2 hne
      rw [List.length_append] at hn
      exact past rest (ih rest.length (by omega) rest rfl)
    · cases text with
      | nil => exact nil
      | cons c text =>
        rw [List.length_cons] at hn
        exact step c text hpre (ih text.length (by omega) text rfl)

/-- The character in front of what follows a text is the last one of the text. -/
theorem getLast?_append_or {w : List Char} (hne : w ≠ []) (front : List Char)
    (before : Option Char) : (w ++ front).getLast?.or before = front.getLast?.or w.getLast? := by
  rw [List.getLast?_append, List.getLast?_eq_some_getLast hne]
  cases front.getLast? <;> rfl

/-- Characters that are skipped leave their last one in front of what follows. -/
theorem mentionsFrom_skip (name w text : List Char) (before : Option Char) :
    mentionsFrom name before w.length (w ++ text) =
      mentionsFrom name (w.getLast?.or before) 0 text := by
  induction w generalizing before with
  | nil => rfl
  | cons c w ih =>
    rw [List.cons_append, List.length_cons, mentionsFrom, ih,
      ← List.getLast?_singleton, ← getLast?_append_or (List.cons_ne_nil c []) w before]
    rfl

theorem mentionsFrom_append (hne : name ≠ []) (text : List Char) (before : Option Char) :
    mentionsFrom name before 0 (name ++ text) =
      (isBoundary before && isBoundary text.head? || mentionsFrom name name.getLast? 0 text) := by
  cases name with
  | nil => exact absurd rfl hne
  | cons c name =>
    have hpre : (c :: name).isPrefixOf (c :: (name ++ text)) = true :=
      List.isPrefixOf_iff_prefix.2 (List.prefix_append (c :: name) text)
    have hskip := mentionsFrom_skip (c :: name) name text (some c)
    rw [List.cons_append, mentionsFrom, if_pos hpre, ← List.cons_append, List.drop_left,
      List.length_cons, Nat.add_sub_cancel, hskip, List.getLast?_cons]
    cases name.getLast? <;> rfl

theorem mentionsFrom_cons (hnot : ¬name <+: c :: text) (before : Option Char) :
    mentionsFrom name before 0 (c :: text) = mentionsFrom name (some c) 0 text := by
  rw [mentionsFrom, if_neg fun hpre => hnot (List.isPrefixOf_iff_prefix.1 hpre)]

/-- A name is mentioned if the scan meets it between boundaries. -/
theorem mentionsFrom_iff (hne : name ≠ []) : mentionsFrom name before 0 text = true ↔
    ∃ front back, Meets name text front back ∧ isBoundary (front.getLast?.or before) = true ∧
      isBoundary back.head? = true := by
  -- the scan carries nothing but the character in front of what it reads
  induction text using scan_induction hne generalizing before with
  | nil =>
    refine iff_of_false Bool.false_ne_true ?_
    rintro ⟨front, back, h, -⟩
    have htext := h.text_eq
    simp [hne] at htext
  | past text ih =>
    rw [mentionsFrom_append hne, Bool.or_eq_true, Bool.and_eq_true, ih]
    constructor
    · rintro (⟨hbefore, hbehind⟩ | ⟨front, back, h, hbefore, hbehind⟩)
      · exact ⟨[], text, .here text, hbefore, hbehind⟩
      · exact ⟨name ++ front, back, .past h, by rwa [getLast?_append_or hne], hbehind⟩
    · rintro ⟨front, back, h, hbefore, hbehind⟩
      rcases meets_append_iff.1 h with ⟨rfl, rfl⟩ | ⟨front, rfl, hpast⟩
      · exact .inl ⟨hbefore, hbehind⟩
      · rw [getLast?_append_or hne] at hbefore
        exact .inr ⟨front, back, hpast, hbefore, hbehind⟩
  | step c text hnot ih =>
    rw [mentionsFrom_cons hnot, ih]
    have hlast := fun front => getLast?_append_or (List.cons_ne_nil c []) front before
    constructor
    · rintro ⟨front, back, h, hbefore, hbehind⟩
      exact ⟨c :: front, back, .step hnot h, (hlast front).symm ▸ hbefore, hbehind⟩
    · rintro ⟨front, back, h, hbefore, hbehind⟩
      obtain ⟨front, rfl, hstep⟩ := (meets_cons_iff hnot).1 h
      exact ⟨front, back, hstep, hlast front ▸ hbefore, hbehind⟩

/-- **A name is mentioned if the scan meets it between boundaries**, and only then. -/
theorem mentions_iff_meets {text name : String} (hne : name.toList ≠ []) :
    mentions text name = true ↔ ∃ front back, Meets name.toList text.toList front back ∧
      isBoundary front.getLast? = true ∧ isBoundary back.head? = true := by
  have hname : (! name.isEmpty) = true := by simpa using hne
  rw [mentions, hname, Bool.true_and, mentionsFrom_iff hne]
  simp only [Option.or_none]

/-- An occurrence that begins inside another one is not met, be it between boundaries or not. -/
example : mentions "xaéaéa" "aéa" = false := by decide

/-! ### The characters beside an occurrence -/

/-- A letter or a number sign beyond ASCII. -/
def isForeign (c : Char) : Bool :=
  isAlphanumeric c && decide (128 ≤ c.toNat)

/-- The characters that end no name for the scan are those of identifiers that are not foreign. -/
theorem isAsciiWordPart_iff : isAsciiWordPart c = true ↔
    isWordPart c = true ∧ isForeign c = false := by
  by_cases hc : c.toNat < 128
  · have hforeign : isForeign c = false := by
      rw [isForeign, decide_eq_false (by omega), Bool.and_false]
    rw [isAsciiWordPart, isWordPart, isAlphanumeric_of_lt hc, hforeign]
    simp
  · have hmark : ∀ d ∈ ['_', '$'], c ≠ d := by
      rintro d hd rfl
      exact hc (forall_mem_of_all (p := fun d => d.toNat < 128) (by decide) _ hd)
    have hplain : c.isAlphanum = false :=
      Bool.eq_false_iff.2 fun halnum => hc (lt_of_isAlphanum halnum)
    simp [isAsciiWordPart, isWordPart, isForeign, hplain, hmark, Nat.le_of_not_lt hc]

/-- Beside a boundary stands no character of an identifier, unless it is a foreign one. -/
theorem isBoundary_iff {neighbour : Option Char} : isBoundary neighbour = true ↔
    ∀ c ∈ neighbour, isWordPart c = true → isForeign c = true := by
  cases neighbour with
  | none => simp [isBoundary]
  | some c =>
    rw [isBoundary, Bool.not_eq_true', Bool.eq_false_iff, Ne, isAsciiWordPart_iff]
    simp

/-! ### The runs of a text -/

/-- What stands between two parts of a text goes on in neither of them. -/
structure Alone (front back : List Char) : Prop where
  /-- No character of an identifier is in front. -/
  before : ∀ c ∈ front.getLast?, isWordPart c = false
  /-- No character of an identifier is behind. -/
  behind : ∀ c ∈ back.head?, isWordPart c = false

/-- A maximal run of characters of identifiers in a text. -/
structure IsRun (text run : List Char) : Prop where
  /-- There is a character. -/
  ne_nil : run ≠ []
  /-- All may stand in an identifier. -/
  parts : ∀ c ∈ run, isWordPart c = true
  /-- The run cannot be made longer. -/
  maximal : ∃ front back, text = front ++ (run ++ back) ∧ Alone front back

/-- The runs of a text are its pieces between other characters. -/
theorem isRun_iff_mem_fields : IsRun text run ↔ run ≠ [] ∧ run ∈ fields (! isWordPart ·) text := by
  simp only [mem_fields_iff, Bool.not_eq_false', Bool.not_eq_true']
  constructor
  · rintro ⟨hne, hparts, front, back, htext, hbefore, hbehind⟩
    exact ⟨hne, hparts, front, back, htext, hbefore, hbehind⟩
  · rintro ⟨hne, hparts, front, back, htext, hbefore, hbehind⟩
    exact ⟨hne, hparts, front, back, htext, hbefore, hbehind⟩

instance (text run : List Char) : Decidable (IsRun text run) :=
  decidable_of_iff _ isRun_iff_mem_fields.symm

/-- The name cannot begin in front of a character that is none of it and go on behind. -/
theorem prefix_of_prefix_append (hname : ∀ c ∈ name, isWordPart c = true) (hfront : front ≠ [])
    (hlast : ∀ c ∈ front.getLast?, isWordPart c = false) (h : name <+: front ++ text) :
    name <+: front := by
  rcases List.prefix_or_prefix_of_prefix h (List.prefix_append front text) with hpre | hpre
  · exact hpre
  · have hmem := hpre.subset (List.getLast_mem hfront)
    have hpart := hlast _ (List.getLast?_eq_some_getLast hfront)
    rw [hname _ hmem] at hpart
    cases hpart

/-- **No run is overlooked**: where a name is a run of the text, the scan meets it. -/
theorem meets_of_alone (hne : name ≠ []) (hname : ∀ c ∈ name, isWordPart c = true)
    (hfront : ∀ c ∈ front.getLast?, isWordPart c = false) (back : List Char) :
    Meets name (front ++ (name ++ back)) front back := by
  -- what is in front of the run is scanned in the same way without the run
  induction front using scan_induction hne with
  | nil => exact .here back
  | past front ih =>
    rw [List.append_assoc]
    refine .past (ih fun c hc => hfront c ?_)
    rw [List.getLast?_append, hc]
    rfl
  | step c front hnot ih =>
    refine .step (fun hpre => hnot ?_) (ih fun d hd => hfront d ?_)
    · exact prefix_of_prefix_append hname (List.cons_ne_nil c front) hfront hpre
    · rw [List.getLast?_cons, hd]
      rfl

theorem mentions_of_isRun {text name : String} (h : IsRun text.toList name.toList) :
    mentions text name = true := by
  obtain ⟨front, back, htext, halone⟩ := h.maximal
  refine (mentions_iff_meets h.ne_nil).2 ⟨front, back, ?_, ?_, ?_⟩
  · rw [htext]
    exact meets_of_alone h.ne_nil h.parts halone.before back
  · exact isBoundary_iff.2 fun c hc hpart => absurd hpart (by simp [halone.before c hc])
  · exact isBoundary_iff.2 fun c hc hpart => absurd hpart (by simp [halone.behind c hc])

/-! ### What is mentioned -/

/-- What stands between two parts of a text is cut off a longer run by foreign letters. -/
structure CutOff (front back : List Char) : Prop where
  /-- In front the run does not go on, or with a foreign letter. -/
  before : ∀ c ∈ front.getLast?, isWordPart c = true → isForeign c = true
  /-- Behind the run does not go on, or with a foreign letter. -/
  behind : ∀ c ∈ back.head?, isWordPart c = true → isForeign c = true
  /-- The run goes on. -/
  goesOn : ∃ c, (c ∈ front.getLast? ∨ c ∈ back.head?) ∧ isForeign c = true

/-- Between boundaries stands what is alone, and what is cut off a longer run. -/
theorem alone_or_cutOff (hbefore : isBoundary front.getLast? = true)
    (hbehind : isBoundary back.head? = true) : Alone front back ∨ CutOff front back := by
  rw [isBoundary_iff] at hbefore hbehind
  by_cases hgoes : ∃ c, (c ∈ front.getLast? ∨ c ∈ back.head?) ∧ isForeign c = true
  · exact .inr ⟨hbefore, hbehind, hgoes⟩
  · refine .inl ⟨fun c hc => Bool.eq_false_iff.2 fun hpart => ?_,
      fun c hc => Bool.eq_false_iff.2 fun hpart => ?_⟩
    · exact hgoes ⟨c, .inl hc, hbefore c hc hpart⟩
    · exact hgoes ⟨c, .inr hc, hbehind c hc hpart⟩

theorem ne_nil_of_isIdentifierChars (h : isIdentifierChars name = true) : name ≠ [] := by
  rintro rfl
  cases h

/-- What is mentioned is a run, or it is cut off one. -/
theorem isRun_or_cutOff_of_mentions {text name : String} (h : isIdentifier name = true)
    (hmentions : mentions text name = true) : IsRun text.toList name.toList ∨
      ∃ front back, Meets name.toList text.toList front back ∧ CutOff front back := by
  have hne := ne_nil_of_isIdentifierChars h
  obtain ⟨front, back, hmeets, hbefore, hbehind⟩ := (mentions_iff_meets hne).1 hmentions
  rcases alone_or_cutOff hbefore hbehind with halone | hcut
  · have hparts := isWordPart_of_isIdentifierChars h
    exact .inl ⟨hne, hparts, front, back, hmeets.text_eq, halone⟩
  · exact .inr ⟨front, back, hmeets, hcut⟩

/-- **In a text without letters beyond ASCII the names that are mentioned are its runs.** -/
theorem mentions_iff_isRun_of_plain {text name : String} (h : isIdentifier name = true)
    (hplain : ∀ c ∈ text.toList, isForeign c = false) :
    mentions text name = true ↔ IsRun text.toList name.toList := by
  refine ⟨fun hmentions => (isRun_or_cutOff_of_mentions h hmentions).resolve_right ?_,
    mentions_of_isRun⟩
  rintro ⟨front, back, hmeets, hcut⟩
  obtain ⟨c, hc, hforeign⟩ := hcut.goesOn
  -- the letter with which the run goes on is one of the text
  have hmem : c ∈ text.toList := by
    rw [hmeets.text_eq, List.mem_append, List.mem_append]
    rcases hc with hc | hc
    · exact .inl (List.mem_of_mem_getLast? hc)
    · exact .inr (.inr (List.mem_of_mem_head? hc))
  rw [hplain c hmem] at hforeign
  cases hforeign

/-- **A name is mentioned if it is a run of the text, or if an occurrence that the scan meets is cut
off a longer run by letters beyond ASCII**, and only then. -/
theorem mentions_iff_isRun_or_cutOff {text name : String} (h : isIdentifier name = true) :
    mentions text name = true ↔ IsRun text.toList name.toList ∨
      ∃ front back, Meets name.toList text.toList front back ∧ CutOff front back := by
  refine ⟨isRun_or_cutOff_of_mentions h, ?_⟩
  rintro (hrun | ⟨front, back, hmeets, hcut⟩)
  · exact mentions_of_isRun hrun
  · exact (mentions_iff_meets (ne_nil_of_isIdentifierChars h)).2
      ⟨front, back, hmeets, isBoundary_iff.2 hcut.before, isBoundary_iff.2 hcut.behind⟩

/-- A name that is a part of one run and is another one. -/
theorem mentions_iff_isRun_or_cutOff_tail : isIdentifier "tail" = true ∧
    IsRun "retail.tail(entry)".toList "tail".toList ∧
      mentions "retail.tail(entry)" "tail" = true := by
  have h : isIdentifier "tail" = true := by decide
  have hrun : IsRun "retail.tail(entry)".toList "tail".toList := by decide
  exact ⟨h, hrun, (mentions_iff_isRun_or_cutOff h).2 (.inl hrun)⟩

end Text

namespace Store

/-- The store of a text with two constants, of which the second one reads the first one. -/
def accentedStore : Store :=
  (Source.readMiddlewares "const détail = 1;\nconst tail = détail;\n").1

/-- **A name is mentioned inside a longer word**, cut off by a letter beyond ASCII. So the first
constant seems to read the second one, and the two cannot be ordered. -/
theorem mentioned_inside_word :
    (Text.isIdentifier "tail" = true ∧ Text.mentions "détail" "tail" = true ∧
      ¬Text.IsRun "détail".toList "tail".toList) ∧
    accentedStore.statements = ["const détail = 1;", "const tail = détail;"] ∧
      accentedStore.ordered = .error ["détail", "tail", "détail"] := by
  refine ⟨by decide, ?_, ?_⟩ <;> decide +kernel

end Store

end ModuleScaffold

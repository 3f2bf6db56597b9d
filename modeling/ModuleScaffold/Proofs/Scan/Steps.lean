import ModuleScaffold.Proofs.Reading.Lexeme
import ModuleScaffold.Proofs.Text.Spacing
import ModuleScaffold.Store.Order

/-!
# The scan of a list of variables

The names that a list of variables binds are found by a scan that knows of a text only its quotes,
its brackets, and the marks at which a pattern ends or a new one begins. Outside quotes the scan is
*calm*, and every character moves it in the same way wherever it stands: brackets change the depth,
a semicolon ends the scan unless it stands in brackets, and a colon or an equals sign leads out of a
pattern unless it stands in brackets.

Where the scan is calm and in a pattern, it finds the name that it reads.

Main statements:

* `ModuleScaffold.Store.DeclaratorScan.led_next_plain`,
  `ModuleScaffold.Store.DeclaratorScan.led_next_opening`,
  `ModuleScaffold.Store.DeclaratorScan.led_next_closing` – where a character leads the scan;
* `ModuleScaffold.Store.DeclaratorScan.mem_names_of_word` – **a name that is read in a pattern is
  found**.
-/

namespace ModuleScaffold

namespace Store

namespace DeclaratorScan

variable {scan scan' scan'' : DeclaratorScan} {c : Char} {cs w : List Char} {low rise rise' : ℤ}

/-- The scan behind a text. -/
def after (scan : DeclaratorScan) (cs : List Char) : DeclaratorScan :=
  cs.foldl next scan

theorem after_nil (scan : DeclaratorScan) : scan.after [] = scan :=
  rfl

theorem after_cons (scan : DeclaratorScan) (c : Char) (cs : List Char) :
    scan.after (c :: cs) = (scan.next c).after cs :=
  rfl

theorem after_append (scan : DeclaratorScan) (cs ds : List Char) :
    scan.after (cs ++ ds) = (scan.after cs).after ds :=
  List.foldl_append

/-! ### Where a scan stands -/

/-- The scan stands outside quotes, and the list has not ended. -/
structure Calm (scan : DeclaratorScan) : Prop where
  /-- No quote mark is open. -/
  unquoted : scan.quoteMark = none
  /-- No character is escaped. -/
  unescaped : scan.escaped = false
  /-- The list goes on. -/
  running : scan.ended = false

theorem Calm.withPattern (h : scan.Calm) (pattern : List Char) :
    Calm { scan with pattern := pattern } :=
  ⟨h.unquoted, h.unescaped, h.running⟩

/-- The scan is calm again, with more brackets open, and with more brackets open than the given
number it does not leave a pattern. -/
structure Led (low rise : ℤ) (scan scan' : DeclaratorScan) : Prop where
  /-- The scan is calm. -/
  calm : scan'.Calm
  /-- How many more brackets are open. -/
  depth : scan'.depth = scan.depth + rise
  /-- A pattern is not left. -/
  inPattern : low < scan.depth → scan.inPattern = true → scan'.inPattern = true

namespace Led

theorem self (h : scan.Calm) : Led low 0 scan scan :=
  ⟨h, (Int.add_zero _).symm, fun _ hin => hin⟩

theorem trans {low' : ℤ} (h : Led low rise scan scan') (h' : Led low' rise' scan' scan'')
    (hle : low' ≤ low + rise) : Led low (rise + rise') scan scan'' where
  calm := h'.calm
  depth := by rw [h'.depth, h.depth, Int.add_assoc]
  inPattern hlow hin := h'.inPattern (by rw [h.depth]; omega) (h.inPattern hlow hin)

end Led

/-- The scan goes on as before: outside quotes, with as many open brackets, and in a pattern if it
was in one. -/
structure Unmoved (scan scan' : DeclaratorScan) : Prop where
  /-- The scan is calm. -/
  calm : scan'.Calm
  /-- As many brackets are open. -/
  depth : scan'.depth = scan.depth
  /-- A pattern is not left. -/
  inPattern : scan.inPattern = true → scan'.inPattern = true

theorem unmoved_iff : Unmoved scan scan' ↔
    (scan'.quoteMark = none ∧ scan'.escaped = false ∧ scan'.ended = false) ∧
      scan'.depth = scan.depth ∧ (scan.inPattern = true → scan'.inPattern = true) :=
  ⟨fun ⟨⟨hquote, hescaped, hended⟩, hdepth, hin⟩ => ⟨⟨hquote, hescaped, hended⟩, hdepth, hin⟩,
    fun ⟨⟨hquote, hescaped, hended⟩, hdepth, hin⟩ => ⟨⟨hquote, hescaped, hended⟩, hdepth, hin⟩⟩

instance (scan scan' : DeclaratorScan) : Decidable (Unmoved scan scan') :=
  decidable_of_iff _ unmoved_iff.symm

theorem Unmoved.led (h : Unmoved scan scan') : Led low 0 scan scan' :=
  ⟨h.calm, h.depth.trans (Int.add_zero _).symm, fun _ => h.inPattern⟩

/-! ### One character -/

/-- Whether a character opens a bracket. -/
def isOpening (c : Char) : Bool :=
  c == '(' || c == '[' || c == '\x7b'

/-- Whether a character closes a bracket. -/
def isClosing (c : Char) : Bool :=
  c == ')' || c == ']' || c == '\x7d'

/-- Whether a character opens and closes nothing, ends neither a pattern nor the list, and starts no
comment. -/
def isInert (c : Char) : Bool :=
  ! (Text.isQuoteMark c || isOpening c || isClosing c || c == ':' || c == '=' || c == ';' ||
    c == '/')

/-- Whether a character opens and closes nothing, does not end the list, and starts no comment. -/
def isPlain (c : Char) : Bool :=
  isInert c || c == ':' || c == '='

/-- The characters that are not inert. -/
def marks : List Char :=
  ['"', '\'', '\u0060', '(', '[', '\x7b', ')', ']', '\x7d', ':', '=', ';', '/']

/-- Characters of a kind to which no mark belongs are inert. -/
theorem isInert_of {p : Char → Bool} (hc : p c = true) (hp : ∀ d ∈ marks, p d = false) :
    isInert c = true := by
  have hne : ∀ d ∈ marks, c ≠ d := by
    rintro d hd rfl
    rw [hp c hd] at hc
    cases hc
  simp only [marks, List.forall_mem_cons, List.not_mem_nil, false_imp_iff, implies_true,
    and_true] at hne
  simp [isInert, isOpening, isClosing, Text.isQuoteMark, hne]

theorem next_of_calm (h : scan.Calm) : scan.next c = scan.nextPlain c := by
  rw [next, h.running, h.unquoted]
  rfl

theorem keep_eq (scan : DeclaratorScan) (c : Char) : scan.keep c =
    { scan with pattern := if scan.inPattern then scan.pattern ++ [c] else scan.pattern } := by
  rw [keep]
  split <;> rfl

theorem led_keep (h : scan.Calm) : Led low 0 scan (scan.keep c) := by
  rw [keep_eq]
  exact ⟨⟨h.unquoted, h.unescaped, h.running⟩, (Int.add_zero _).symm, fun _ hin => hin⟩

/-- **A bracket is opened.** -/
theorem led_next_opening (h : scan.Calm) (hc : isOpening c = true) :
    Led low 1 scan (scan.next c) := by
  simp only [isOpening, Bool.or_eq_true, beq_iff_eq] at hc
  have hnext : scan.next c = { scan with depth := scan.depth + 1 }.keep c := by
    rw [next_of_calm h]
    rcases hc with (rfl | rfl) | rfl <;> simp [nextPlain, Text.isQuoteMark]
  rw [hnext, keep_eq]
  exact ⟨⟨h.unquoted, h.unescaped, h.running⟩, rfl, fun _ hin => hin⟩

/-- **A bracket is closed.** -/
theorem led_next_closing (h : scan.Calm) (hc : isClosing c = true) :
    Led low (-1) scan (scan.next c) := by
  simp only [isClosing, Bool.or_eq_true, beq_iff_eq] at hc
  have hnext : scan.next c = { scan with depth := scan.depth - 1 }.keep c := by
    rw [next_of_calm h]
    rcases hc with (rfl | rfl) | rfl <;> simp [nextPlain, Text.isQuoteMark]
  rw [hnext, keep_eq]
  exact ⟨⟨h.unquoted, h.unescaped, h.running⟩, rfl, fun _ hin => hin⟩

/-- Behind a comma outside brackets a pattern begins. -/
theorem next_comma (h : scan.Calm) (hdepth : scan.depth = 0) :
    scan.next ',' = { scan.close with inPattern := true } := by
  rw [next_of_calm h]
  simp [nextPlain, Text.isQuoteMark, hdepth]

/-- What an inert character does. -/
theorem next_inert (h : scan.Calm) (hc : isInert c = true) : scan.next c =
    if c = ',' ∧ scan.depth = 0 then { scan.close with inPattern := true } else scan.keep c := by
  simp only [isInert, isOpening, isClosing, Bool.not_eq_true', Bool.or_eq_false_iff,
    beq_eq_false_iff_ne] at hc
  rw [next_of_calm h, nextPlain]
  simp [hc]

/-- **A character that stands for itself moves nothing.** -/
theorem led_next_inert (h : scan.Calm) (hc : isInert c = true) : Led low 0 scan (scan.next c) := by
  rw [next_inert h hc]
  split
  · exact ⟨⟨h.unquoted, h.unescaped, h.running⟩, (Int.add_zero _).symm, fun _ _ => rfl⟩
  · exact led_keep h

/-- A slash moves nothing. -/
theorem led_next_slash (h : scan.Calm) : Led low 0 scan (scan.next '/') := by
  have hnext : scan.next '/' = scan.keep '/' := by
    rw [next_of_calm h]
    simp [nextPlain, Text.isQuoteMark]
  rw [hnext]
  exact led_keep h

/-- **A colon or an equals sign leads out of a pattern**, unless it stands in brackets. -/
theorem led_next_plain (h : scan.Calm) (hlow : 0 ≤ low) (hc : isPlain c = true) :
    Led low 0 scan (scan.next c) := by
  simp only [isPlain, Bool.or_eq_true, beq_iff_eq, or_assoc] at hc
  rcases hc with hc | hc
  · exact led_next_inert h hc
  · have hnext : scan.next c = if scan.depth = 0 ∧ scan.inPattern = true then
        { scan.close with inPattern := false } else scan.keep c := by
      rw [next_of_calm h]
      rcases hc with rfl | rfl <;> simp [nextPlain, Text.isQuoteMark]
    rw [hnext]
    split
    · next hdepth =>
      exact ⟨⟨h.unquoted, h.unescaped, h.running⟩, (Int.add_zero _).symm,
        fun hpos _ => by rw [hdepth.1] at hpos; omega⟩
    · exact led_keep h

/-- **A semicolon in brackets does not end the list.** -/
theorem led_next_semicolon (h : scan.Calm) (hdepth : 0 < scan.depth) :
    Led low 0 scan (scan.next ';') := by
  have hnext : scan.next ';' = scan.keep ';' := by
    have hne : scan.depth ≠ 0 := by omega
    rw [next_of_calm h]
    simp [nextPlain, Text.isQuoteMark, hne]
  rw [hnext]
  exact led_keep h

/-! ### What is kept of a text -/

/-- A text behind which a word begins: its last character is none of a word. -/
def Parted (cs : List Char) : Prop :=
  ∀ c ∈ cs.getLast?, Text.isWordPart c = false

theorem parted_nil : Parted [] :=
  fun _ h => nomatch h

theorem parted_concat (h : Text.isWordPart c = false) (cs : List Char) : Parted (cs ++ [c]) := by
  intro d hd
  rw [List.getLast?_concat] at hd
  exact Option.some.inj hd ▸ h

theorem Parted.append_of_ne_nil {cs ds : List Char} (h : Parted ds) (hne : ds ≠ []) :
    Parted (cs ++ ds) := by
  obtain ⟨ds, d, rfl⟩ := List.eq_nil_or_concat' ds |>.resolve_left hne
  rw [← List.append_assoc]
  exact parted_concat (h d (by simp)) _

theorem Parted.append {cs ds : List Char} (h : Parted cs) (h' : Parted ds) : Parted (cs ++ ds) := by
  rcases eq_or_ne ds [] with rfl | hne
  · rwa [List.append_nil]
  · exact h'.append_of_ne_nil hne

theorem isWordPart_of_isQuoteMark (h : Text.isQuoteMark c = true) : Text.isWordPart c = false := by
  simp only [Text.isQuoteMark, Bool.or_eq_true, beq_iff_eq] at h
  rcases h with (rfl | rfl) | rfl <;> decide

/-- The list has ended. -/
theorem next_of_ended (h : scan.ended = true) : scan.next c = scan :=
  if_pos h

/-- Nothing is kept of a character: the list has ended, ends here, or the character is quoted. -/
structure Passed (scan scan' : DeclaratorScan) : Prop where
  /-- No name is found. -/
  names : scan'.names = scan.names
  /-- The pattern stays as it is. -/
  pattern : scan'.pattern = scan.pattern
  /-- A pattern is neither left nor entered. -/
  inPattern : scan'.inPattern = scan.inPattern
  /-- No quotes are opened. -/
  quoteMark : scan'.quoteMark ≠ none → scan.quoteMark ≠ none
  /-- Why nothing is kept. -/
  reason : scan'.ended = true ∨ scan.quoteMark ≠ none

/-- A character is kept if the scan is in a pattern. -/
structure Kept (c : Char) (scan scan' : DeclaratorScan) : Prop where
  /-- No name is found. -/
  names : scan'.names = scan.names
  /-- The pattern has the character behind it. -/
  pattern : scan'.pattern = if scan.inPattern then scan.pattern ++ [c] else scan.pattern
  /-- A pattern is neither left nor entered. -/
  inPattern : scan'.inPattern = scan.inPattern
  /-- Only a quote mark opens quotes. -/
  quoteMark : scan'.quoteMark ≠ none → Text.isWordPart c = false

/-- A pattern ends, and its names are found. -/
structure Closed (scan scan' : DeclaratorScan) : Prop where
  /-- The names of the pattern. -/
  names : scan'.names = scan.names ++ Text.identifiersIn scan.pattern
  /-- The next pattern starts empty. -/
  pattern : scan'.pattern = []

/-- **A character is passed over, kept, or the end of a pattern.** -/
theorem next_cases (scan : DeclaratorScan) (c : Char) :
    Passed scan (scan.next c) ∨ Kept c scan (scan.next c) ∨ Closed scan (scan.next c) := by
  by_cases hended : scan.ended = true
  · rw [next_of_ended hended]
    exact .inl ⟨rfl, rfl, rfl, id, .inl hended⟩
  rw [next, if_neg hended]
  cases hquote : scan.quoteMark with
  | some mark =>
    have hreason : scan.quoteMark ≠ none := by simp [hquote]
    left
    dsimp only
    rw [nextQuoted]
    split_ifs
    all_goals exact ⟨rfl, rfl, rfl, fun _ => hreason, .inr hreason⟩
  | none =>
    have hkeep : ∀ depth, Kept c scan ({ scan with depth := depth }.keep c) := fun depth => by
      rw [keep_eq]
      exact ⟨rfl, rfl, rfl, fun h => absurd hquote h⟩
    dsimp only
    rw [nextPlain]
    split_ifs with hmark
    · refine .inr (.inl ?_)
      rw [keep_eq]
      exact ⟨rfl, rfl, rfl, fun _ => isWordPart_of_isQuoteMark hmark⟩
    · exact .inr (.inl (hkeep _))
    · exact .inr (.inl (hkeep _))
    · exact .inr (.inr ⟨rfl, rfl⟩)
    · exact .inr (.inr ⟨rfl, rfl⟩)
    · exact .inl ⟨rfl, rfl, rfl, id, .inl rfl⟩
    · exact .inr (.inl (hkeep scan.depth))

/-- What is known of every scan: outside a pattern nothing is kept, and in quotes a quote mark is
the last character that is kept. -/
structure Sound (scan : DeclaratorScan) : Prop where
  /-- Outside a pattern nothing is kept. -/
  pattern : scan.inPattern = false → scan.pattern = []
  /-- In quotes no word goes on. -/
  quoted : scan.quoteMark ≠ none → Parted scan.pattern

theorem Kept.parted (h : Kept c scan scan') (hsound : scan.Sound)
    (hc : Text.isWordPart c = false) : Parted scan'.pattern := by
  rw [h.pattern]
  split
  · exact parted_concat hc _
  · next hin => exact hsound.pattern (by simpa using hin) ▸ parted_nil

theorem sound_start : Sound {} :=
  ⟨fun h => (nomatch h), fun h => absurd rfl h⟩

theorem Sound.next (h : scan.Sound) (c : Char) : (scan.next c).Sound := by
  rcases next_cases scan c with hstep | hstep | hstep
  · exact ⟨fun hin => hstep.pattern ▸ h.pattern (hstep.inPattern ▸ hin),
      fun hquote => hstep.pattern ▸ h.quoted (hstep.quoteMark hquote)⟩
  · refine ⟨fun hin => ?_, fun hquote => hstep.parted h (hstep.quoteMark hquote)⟩
    have hout : scan.inPattern = false := hstep.inPattern ▸ hin
    rw [hstep.pattern, hout, h.pattern hout]
    rfl
  · exact ⟨fun _ => hstep.pattern, fun _ => hstep.pattern ▸ parted_nil⟩

theorem Sound.after (h : scan.Sound) (cs : List Char) : (scan.after cs).Sound := by
  induction cs generalizing scan with
  | nil => exact h
  | cons c cs ih => exact ih (h.next c)

/-- **Behind a character that is none of a word, a word begins.** -/
theorem Sound.parted (h : scan.Sound) (hc : Text.isWordPart c = false)
    (hrunning : (scan.next c).ended = false) : Parted (scan.next c).pattern := by
  rcases next_cases scan c with hstep | hstep | hstep
  · rcases hstep.reason with hended | hquote
    · rw [hrunning] at hended
      cases hended
    · exact hstep.pattern ▸ h.quoted hquote
  · exact hstep.parted h hc
  · exact hstep.pattern ▸ parted_nil

/-! ### A word in a pattern -/

theorem mem_identifiersIn {front back : List Char} (hw : Text.isIdentifierChars w = true)
    (hfront : Parted front) (hback : ∀ c ∈ back.head?, Text.isWordPart c = false) :
    w ∈ Text.identifiersIn (front ++ (w ++ back)) := by
  have hword : ∀ c ∈ w, (! Text.isWordPart c) = false := fun c hc => by
    rw [Text.isWordPart_of_isIdentifierChars hw c hc]
    rfl
  refine List.mem_filter.2 ⟨Text.mem_fields_append hword (fun c hc => ?_) fun c hc => ?_, hw⟩
  · rw [hfront c hc]
    rfl
  · rw [hback c hc]
    rfl

theorem mem_identifiersIn_last {front : List Char} (hw : Text.isIdentifierChars w = true)
    (hfront : Parted front) : w ∈ Text.identifiersIn (front ++ w) := by
  have hmem : w ∈ Text.identifiersIn (front ++ (w ++ [])) :=
    mem_identifiersIn hw hfront fun _ h => nomatch h
  rwa [List.append_nil] at hmem

/-- The scan has found a word or will find it at the end of the pattern. -/
inductive Caught (w : List Char) (scan : DeclaratorScan) : Prop
  /-- The word is found. -/
  | found : w ∈ scan.names → Caught w scan
  /-- The word is in the pattern, and something stands behind it. -/
  | inside {front back : List Char} {c : Char} : Parted front → Text.isWordPart c = false →
      scan.pattern = front ++ (w ++ c :: back) → Caught w scan
  /-- The word is the end of the last pattern. -/
  | atEnd {front : List Char} : Parted front → scan.ended = true →
      scan.pattern = front ++ w → Caught w scan

/-- A word is caught by what stands behind it. -/
theorem caught_next {front : List Char} (hw : Text.isIdentifierChars w = true)
    (hfront : Parted front) (hpattern : scan.pattern = front ++ w) (hcalm : scan.Calm)
    (hin : scan.inPattern = true) (hc : Text.isWordPart c = false) : Caught w (scan.next c) := by
  rcases next_cases scan c with hstep | hstep | hstep
  · rcases hstep.reason with hended | hquote
    · exact .atEnd hfront hended (hstep.pattern.trans hpattern)
    · exact absurd hcalm.unquoted hquote
  · have hkept : (scan.next c).pattern = front ++ (w ++ c :: []) := by
      rw [hstep.pattern, hin, if_pos rfl, hpattern, List.append_assoc]
    exact .inside hfront hc hkept
  · have hmem := mem_identifiersIn_last hw hfront
    rw [← hpattern] at hmem
    exact .found (hstep.names ▸ List.mem_append_right _ hmem)

theorem Caught.mem_names_close (hw : Text.isIdentifierChars w = true) (h : Caught w scan) :
    w ∈ scan.close.names := by
  rw [close, List.mem_append]
  rcases h with h | ⟨hfront, hc, hpattern⟩ | ⟨hfront, -, hpattern⟩
  · exact .inl h
  · exact .inr (hpattern ▸ mem_identifiersIn hw hfront (by simpa using hc))
  · exact .inr (hpattern ▸ mem_identifiersIn_last hw hfront)

theorem Caught.next (hw : Text.isIdentifierChars w = true) (h : Caught w scan) (c : Char) :
    Caught w (scan.next c) := by
  by_cases hended : scan.ended = true
  · rwa [next_of_ended hended]
  rcases next_cases scan c with hstep | hstep | hstep
  · rcases h with h | ⟨hfront, hd, hpattern⟩ | ⟨-, hend, -⟩
    · exact .found (hstep.names ▸ h)
    · exact .inside hfront hd (hstep.pattern.trans hpattern)
    · exact absurd hend hended
  · rcases h with h | ⟨hfront, hd, hpattern⟩ | ⟨-, hend, -⟩
    · exact .found (hstep.names ▸ h)
    · have hkept := hstep.pattern
      split at hkept
      · rw [hpattern, List.append_assoc, List.append_assoc, List.cons_append] at hkept
        exact .inside hfront hd hkept
      · exact .inside hfront hd (hkept.trans hpattern)
    · exact absurd hend hended
  · exact .found (hstep.names ▸ h.mem_names_close hw)

theorem Caught.after (hw : Text.isIdentifierChars w = true) (h : Caught w scan)
    (cs : List Char) : Caught w (scan.after cs) := by
  induction cs generalizing scan with
  | nil => exact h
  | cons c cs ih => exact ih (h.next hw c)

theorem isInert_of_isWordPart (h : Text.isWordPart c = true) : isInert c = true :=
  isInert_of h (Text.forall_mem_of_all (by decide))

/-- The characters of a word are kept. -/
theorem after_word (hcalm : scan.Calm) (hin : scan.inPattern = true)
    (hw : ∀ c ∈ w, Text.isWordPart c = true) :
    scan.after w = { scan with pattern := scan.pattern ++ w } := by
  induction w generalizing scan with
  | nil => rw [after_nil, List.append_nil]
  | cons c w ih =>
    obtain ⟨hc, hw⟩ := List.forall_mem_cons.1 hw
    have hcomma : c ≠ ',' := by
      rintro rfl
      exact absurd hc (by decide)
    have hnext : scan.next c = { scan with pattern := scan.pattern ++ [c] } := by
      rw [next_inert hcalm (isInert_of_isWordPart hc), if_neg fun h => hcomma h.1, keep_eq, hin]
      rfl
    rw [after_cons, hnext, ih (hcalm.withPattern (scan.pattern ++ [c])) hin hw, List.append_assoc]
    rfl

/-- **A name that is read in a pattern is found.** -/
theorem mem_names_of_word {front back : List Char} (hw : Text.isIdentifierChars w = true)
    (hfront : Parted front) (hback : ∀ c ∈ back.head?, Text.isWordPart c = false)
    (hcalm : (after {} front).Calm) (hin : (after {} front).inPattern = true) :
    String.ofList w ∈ declaratorNames (front ++ (w ++ back)) := by
  have hsound : Sound (after {} front) := sound_start.after front
  have hpattern : Parted (after {} front).pattern := by
    rcases List.eq_nil_or_concat' front with rfl | ⟨front, c, rfl⟩
    · exact parted_nil
    · have hnext : after {} (front ++ [c]) = (after {} front).next c := after_append _ _ _
      rw [hnext] at hcalm ⊢
      exact (sound_start.after front).parted (hfront c (by simp)) hcalm.running
  have hword := after_word hcalm hin (Text.isWordPart_of_isIdentifierChars hw)
  refine List.mem_map_of_mem (f := String.ofList) ?_
  change w ∈ (after {} (front ++ (w ++ back))).close.names
  rw [after_append, after_append, hword]
  cases back with
  | nil => exact List.mem_append_right _ (mem_identifiersIn_last hw hpattern)
  | cons c back =>
    have hcalm' := hcalm.withPattern ((after {} front).pattern ++ w)
    have hcaught := caught_next hw hpattern rfl hcalm' hin (hback c rfl)
    exact (hcaught.after hw back).mem_names_close hw

end DeclaratorScan

end Store

end ModuleScaffold

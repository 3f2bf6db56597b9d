import ModuleScaffold.Proofs.Scan.Ways

/-!
# Tokens and the scan of variables

Comments, regular expressions and templates apart, every token leads the scan of variables as the
grammar has it: behind a quoted text it is outside quotes again, brackets are opened and closed, and
everything else leaves the depth as it is.

Main statements:

* `ModuleScaffold.Source.exists_of_stringEnd` – **a quoted text ends for the scan where it ends for
  the grammar**;
* `ModuleScaffold.Source.goes_wordHere`, `ModuleScaffold.Source.goes_numberHere` – words and
  numbers;
* `ModuleScaffold.Source.goes_list` – what stands in a list up to its closing bracket.
-/

namespace ModuleScaffold

namespace Source

open Store (DeclaratorScan)
open Store.DeclaratorScan (isOpening isClosing isInert isPlain)

variable {scan : DeclaratorScan} {cs rest mid : Chars} {c : Char}

/-! ### Marks -/

theorem exists_of_exactly {w : Chars} (h : exactly (c :: w) cs = some rest) :
    ∃ tail, cs = c :: tail ∧ exactly w tail = some rest := by
  cases cs with
  | nil => cases h
  | cons d cs =>
    rw [exactly] at h
    split at h
    · next heq => exact ⟨cs, heq ▸ rfl, h⟩
    · cases h

theorem append_of_exactly {w : Chars} (h : exactly w cs = some rest) : cs = w ++ rest := by
  induction w generalizing cs with
  | nil => exact Option.some.inj h
  | cons c w ih =>
    obtain ⟨tail, rfl, htail⟩ := exists_of_exactly h
    rw [ih htail, List.cons_append]

/-- A mark that opens and closes nothing. -/
theorem moves_exactly {w : Chars} (hw : w.all isPlain = true) (h : exactly w cs = some rest) :
    Passes cs rest := by
  induction w generalizing cs with
  | nil =>
    obtain rfl := Option.some.inj h
    exact Moves.refl _
  | cons c w ih =>
    rw [List.all_cons, Bool.and_eq_true] at hw
    obtain ⟨tail, rfl, htail⟩ := exists_of_exactly h
    exact Onward.trans (Moves.plain hw.1) (ih hw.2 htail)

theorem goes_mark {text : String} (h : text.toList.all isPlain = true) (cs : Chars) :
    Goes Passes cs (mark text cs) :=
  fun _ hmark => Onward.trans (passes_skip cs) (moves_exactly h hmark)

theorem skip_of_mark {text : String} (htext : text.toList = [c]) (h : mark text cs = some rest) :
    skip cs = c :: rest := by
  rw [mark, htext] at h
  obtain ⟨tail, hskip, hrest⟩ := exists_of_exactly h
  rw [hskip, Option.some.inj hrest]

theorem enters_of_skip (h : skip cs = c :: rest) (hc : isOpening c = true) : Enters cs rest := by
  have hskip := passes_skip cs
  rw [h] at hskip
  exact hskip.trans (.opening hc) (Int.le_refl 0)

theorem goes_opening (text : String) (htext : text.toList = [c]) (hc : isOpening c = true)
    (cs : Chars) : Goes Enters cs (mark text cs) :=
  fun _ h => enters_of_skip (skip_of_mark htext h) hc

theorem goes_closing (text : String) (htext : text.toList = [c]) (hc : isClosing c = true)
    (cs : Chars) : Goes Leaves cs (mark text cs) := by
  intro rest h
  have hskip := moves_skip 1 cs
  rw [skip_of_mark htext h] at hskip
  have hclose : Moves 1 (-1) (c :: rest) rest := .closing hc
  exact hskip.trans hclose (Int.le_refl 1)

theorem goes_parenthesis (cs : Chars) : Goes Leaves cs (mark ")" cs) :=
  goes_closing ")" rfl (by decide) cs

theorem goes_bracket (cs : Chars) : Goes Leaves cs (mark "]" cs) :=
  goes_closing "]" rfl (by decide) cs

theorem goes_brace (cs : Chars) : Goes Leaves cs (mark "\x7d" cs) :=
  goes_closing "\x7d" rfl (by decide) cs

theorem runs_semicolon (rest : Chars) : Runs (';' :: rest) rest :=
  .charOf (p := (· == ';')) (by decide) rfl rfl fun _ hcalm hlow =>
    DeclaratorScan.led_next_semicolon hcalm (by omega)

theorem goes_semicolon (cs : Chars) : Goes Runs cs (mark ";" cs) := by
  intro rest h
  have hskip := (passes_skip cs).runs
  rw [skip_of_mark rfl h] at hskip
  exact Onward.trans hskip (runs_semicolon rest)

/-! ### Lists -/

section Lists

variable {α : Type} {item : Chars → Option (α × Chars)} {step : Chars → Option Chars}

theorem goes_comma (cs : Chars) : Goes Passes cs (mark "," cs) :=
  goes_mark (by decide) cs

/-- **What stands in a list up to its closing bracket.** -/
theorem goes_list (holes : Bool) (hitem : ∀ rest, Goes Passes rest (item rest)) (closing : String)
    (htext : closing.toList = [c]) (hc : isClosing c = true) (cs : Chars) :
    Goes Leaves cs (list holes item closing cs) := by
  have hend := goes_closing closing htext hc
  have hfrom : ∀ fuel cs, Goes Leaves cs (listFrom holes item closing fuel cs) := by
    intro fuel
    induction fuel with
    | zero => exact fun _ => .none
    | succ fuel ih =>
      intro cs
      rw [listFrom]
      split
      · next rest hclosed => exact .some (hend cs rest hclosed)
      · split
        · next rest hhole =>
          split at hhole
          · exact fun x hx => (goes_comma cs rest hhole).runs.leaves (ih rest x hx)
          · cases hhole
        · split
          · exact .none
          · next a rest hread =>
            have hpassed : Runs cs rest := (hitem cs _ hread).runs
            split
            · next behind hcomma =>
              have hbehind := Onward.trans hpassed (goes_comma rest behind hcomma).runs
              split
              · next as last hlast =>
                exact .some (hbehind.leaves (ih behind (as, last) hlast))
              · exact .none
            · split
              · next last hclosed => exact .some (hpassed.leaves (hend rest last hclosed))
              · exact .none
  exact hfrom _ cs

theorem goes_listEnd (holes : Bool) (hstep : ∀ rest, Goes Passes rest (step rest))
    (closing : String) (htext : closing.toList = [c]) (hc : isClosing c = true) (cs : Chars) :
    Goes Leaves cs (listEnd holes step closing cs) :=
  (goes_list holes (fun rest => (hstep rest).map fun _ => rfl) closing htext hc cs).map
    fun _ => rfl

theorem goes_separatedEnd (hstep : ∀ rest, Goes Passes rest (step rest)) (cs : Chars) :
    Goes Passes cs (separatedEnd step cs) :=
  (hstep cs).mapOn fun _ => onward_many fun rest => (goes_comma rest).bind hstep

end Lists

/-! ### Words -/

theorem isInert_of_inWord (h : inWord c = true) : isInert c = true :=
  DeclaratorScan.isInert_of h (Text.forall_mem_of_all (by decide))

theorem isSome_digitValue {radix : ℕ} (h : Text.isDigitOf radix c = true) :
    (Text.digitValue c).isSome = true := by
  rw [Text.isDigitOf] at h
  split at h
  · next hvalue =>
    rw [hvalue]
    rfl
  · cases h

theorem isInert_of_isDigitOf {radix : ℕ} (h : Text.isDigitOf radix c = true) : isInert c = true :=
  DeclaratorScan.isInert_of (p := fun c => (Text.digitValue c).isSome) (isSome_digitValue h)
    (Text.forall_mem_of_all (by decide))

theorem moves_inert (low : ℤ) {w : Chars} (hw : ∀ c ∈ w, isInert c = true) (rest : Chars) :
    Moves low 0 (w ++ rest) rest := by
  induction w with
  | nil => exact .refl rest
  | cons c w ih =>
    obtain ⟨hc, hw⟩ := List.forall_mem_cons.1 hw
    exact Moves.trans (.inert hc) (ih hw) (by omega)

theorem passes_inert {w : Chars} (hw : ∀ c ∈ w, isInert c = true) (rest : Chars) :
    Passes (w ++ rest) rest :=
  moves_inert 0 hw rest

/-- What stands behind the first two characters of an escaped character in a word: digits that may
stand in braces. -/
inductive EscapeTail : Chars → Prop
  /-- Digits. -/
  | plain {ds : Chars} : (∀ c ∈ ds, Text.isDigitOf 16 c = true) → EscapeTail ds
  /-- Digits in braces. -/
  | braced {ds : Chars} : (∀ c ∈ ds, Text.isDigitOf 16 c = true) →
      EscapeTail ('\x7b' :: (ds ++ ['\x7d']))

theorem exists_tail_of_wordEscape {n : ℕ} (h : wordEscape cs = some n) : ∃ tail rest,
    cs = '\\' :: 'u' :: (tail ++ rest) ∧ n = tail.length + 2 ∧ EscapeTail tail := by
  unfold wordEscape at h
  split at h
  · next cs =>
    split at h
    · next d ds rest hspan =>
      obtain rfl := Option.some.inj h
      rw [List.span_eq_takeWhile_dropWhile] at hspan
      obtain ⟨htake, hdrop⟩ := Prod.mk.inj hspan
      have hdigits : ∀ x ∈ d :: ds, Text.isDigitOf 16 x = true := fun x hx =>
        List.mem_takeWhile_imp (htake ▸ hx)
      have hcs : cs = (d :: ds) ++ '\x7d' :: rest := by
        rw [← htake, ← hdrop, List.takeWhile_append_dropWhile]
      refine ⟨'\x7b' :: ((d :: ds) ++ ['\x7d']), rest, ?_, by simp, .braced hdigits⟩
      rw [hcs]
      simp
    · cases h
  · next a b c d rest _ =>
    split at h
    · next hdigits =>
      obtain rfl := Option.some.inj h
      exact ⟨[a, b, c, d], rest, rfl, rfl, .plain (List.all_eq_true.1 hdigits)⟩
    · cases h
  · cases h

theorem EscapeTail.passes {tail : Chars} (h : EscapeTail tail) (rest : Chars) :
    Passes (tail ++ rest) rest := by
  cases h with
  | plain hds => exact passes_inert (fun c hc => isInert_of_isDigitOf (hds c hc)) rest
  | @braced ds hds =>
    rw [List.cons_append, List.append_assoc]
    have hopen : Enters ('\x7b' :: (ds ++ '\x7d' :: rest)) (ds ++ '\x7d' :: rest) :=
      Moves.opening (by decide)
    have hclose : Leaves ('\x7d' :: rest) rest := Moves.closing (by decide)
    have hdigits : Passes (ds ++ '\x7d' :: rest) ('\x7d' :: rest) :=
      passes_inert (fun c hc => isInert_of_isDigitOf (hds c hc)) _
    exact hopen.leaves (hdigits.runs.leaves hclose)

/-- An escaped character. -/
theorem passes_wordEscape {n : ℕ} (h : wordEscape (c :: cs) = some n) :
    Passes (c :: cs) (cs.drop (n - 1)) := by
  obtain ⟨tail, rest, hcs, rfl, htail⟩ := exists_tail_of_wordEscape h
  obtain ⟨rfl, rfl⟩ := List.cons.inj hcs
  have hdrop : ('u' :: (tail ++ rest)).drop (tail.length + 2 - 1) = rest := by simp
  rw [hdrop]
  exact Onward.trans (passes_inert (w := ['\\', 'u']) (by simp; decide) _) (htail.passes rest)

theorem passes_wordFrom (pending : ℕ) (cs : Chars) :
    Passes (cs.drop pending) (wordFrom pending cs).2 := by
  induction cs generalizing pending with
  | nil =>
    rw [List.drop_nil]
    exact Onward.refl []
  | cons c cs ih =>
    cases pending with
    | succ n => exact ih n
    | zero =>
      rw [List.drop_zero, wordFrom]
      split
      · next hc => exact Onward.trans (Moves.inert (isInert_of_inWord hc)) (ih 0)
      · split
        · next n hescape => exact Onward.trans (passes_wordEscape hescape) (ih (n - 1))
        · exact Onward.refl _

/-- **Words.** -/
theorem goes_wordHere (cs : Chars) : Goes Passes cs (wordHere cs) := by
  intro x h
  have hfrom := passes_wordFrom 0 cs
  rw [wordHere] at h
  split at h
  · cases h
  · next c w rest hword =>
    rw [hword] at hfrom
    split at h
    · cases h
    · obtain rfl := Option.some.inj h
      exact hfrom

theorem goes_word (cs : Chars) : Goes Passes cs (word cs) :=
  .after (passes_skip cs) (goes_wordHere _)

theorem goes_anyWord (cs : Chars) : Goes Passes cs (anyWord cs) :=
  (goes_word cs).map fun _ => rfl

theorem goes_keyword (text : String) (cs : Chars) : Goes Passes cs (keyword text cs) := by
  unfold keyword
  split
  · next hword => exact .ite (.some (goes_word cs _ hword)) .none
  · exact .none

theorem goes_keywordAmong (texts : List String) (cs : Chars) :
    Goes Passes cs (keywordAmong texts cs) := by
  unfold keywordAmong
  split
  · next hword => exact .ite (.some (goes_word cs _ hword)) .none
  · exact .none

theorem goes_privateName (cs : Chars) : Goes Passes cs (privateName cs) := by
  unfold privateName
  split
  · next rest hskip =>
    have hmark : Passes cs ('#' :: rest) := hskip ▸ passes_skip cs
    have hname : Passes ('#' :: rest) rest := Moves.inert (by decide)
    exact .after (Onward.trans hmark hname) ((goes_wordHere rest).map fun _ => rfl)
  · exact .none

theorem goes_pathEnd (cs : Chars) : Goes Passes cs (pathEnd cs) :=
  (goes_anyWord cs).mapOn fun _ => onward_many fun rest =>
    (goes_mark (by decide) rest).bind goes_anyWord

/-! ### Quoted texts -/

/-- Whether a character behind the first two of an escape ends neither the escape nor the text. -/
def isTame (c : Char) : Bool :=
  ! (Text.isQuoteMark c || c == '\\')

theorem isTame_of_isDigitOf {radix : ℕ} (h : Text.isDigitOf radix c = true) :
    isTame c = true := by
  have hmark : ∀ d : Char, (Text.digitValue d).isSome = false → c ≠ d := by
    rintro d hd rfl
    rw [isSome_digitValue h] at hd
    cases hd
  simp [isTame, Text.isQuoteMark, hmark '"' rfl, hmark '\'' rfl, hmark '\u0060' rfl,
    hmark '\\' rfl]

theorem EscapeTail.isTame {tail : Chars} (h : EscapeTail tail) : ∀ c ∈ tail, isTame c = true := by
  cases h with
  | plain hds => exact fun c hc => isTame_of_isDigitOf (hds c hc)
  | @braced ds hds =>
    intro c hc
    rw [List.mem_cons, List.mem_append, List.mem_singleton] at hc
    rcases hc with rfl | hc | rfl
    · decide
    · exact isTame_of_isDigitOf (hds c hc)
    · decide

/-- An escape in a quoted text. -/
theorem exists_tail_of_escapeLength {n : ℕ} (h : escapeLength cs = some n) : ∃ c tail rest,
    cs = '\\' :: c :: (tail ++ rest) ∧ n = tail.length + 2 ∧ ∀ d ∈ tail, isTame d = true := by
  unfold escapeLength at h
  split at h
  · next a b rest =>
    split at h
    · next hdigits =>
      rw [Bool.and_eq_true] at hdigits
      obtain rfl := Option.some.inj h
      refine ⟨'x', [a, b], rest, rfl, rfl, ?_⟩
      exact List.forall_mem_cons.2 ⟨isTame_of_isDigitOf hdigits.1,
        List.forall_mem_singleton.2 (isTame_of_isDigitOf hdigits.2)⟩
    · cases h
  · obtain ⟨tail, rest, hcs, hn, htail⟩ := exists_tail_of_wordEscape h
    exact ⟨'u', tail, rest, hcs, hn, htail.isTame⟩
  · next rest =>
    obtain rfl := Option.some.inj h
    exact ⟨'\r', ['\n'], rest, rfl, rfl, Text.forall_mem_of_all (by decide)⟩
  · next c rest _ _ _ =>
    split at h
    · cases h
    · split at h
      · obtain rfl := Option.some.inj h
        have hprefix : (rest.take 2).takeWhile (Text.isDigitOf 8) <+: rest :=
          (List.takeWhile_prefix _).trans (List.take_prefix _ _)
        obtain ⟨behind, hbehind⟩ := hprefix
        refine ⟨c, _, behind, by rw [hbehind], Nat.add_comm _ _, fun d hd => ?_⟩
        exact isTame_of_isDigitOf (List.mem_takeWhile_imp hd)
      · obtain rfl := Option.some.inj h
        exact ⟨c, [], rest, rfl, rfl, fun d hd => nomatch hd⟩
  · cases h

theorem stringEnd_pending (q : Char) (w rest : Chars) :
    stringEnd q w.length (w ++ rest) = stringEnd q 0 rest := by
  induction w with
  | nil => rfl
  | cons c w ih => exact ih

/-- The scan inside quotes. -/
structure Quoted (q : Char) (scan : DeclaratorScan) : Prop where
  /-- Which quotes are open. -/
  quoteMark : scan.quoteMark = some q
  /-- No character is escaped. -/
  unescaped : scan.escaped = false
  /-- The list goes on. -/
  running : scan.ended = false

namespace Quoted

variable {q : Char}

theorem next_eq (h : Quoted q scan) (c : Char) : scan.next c = scan.nextQuoted q c := by
  rw [DeclaratorScan.next, h.running, h.quoteMark]
  rfl

theorem next_escaped (h : Quoted q scan) (c : Char) :
    { scan with escaped := true }.next c = scan := by
  obtain ⟨hmark, hescaped, hrunning⟩ := h
  cases scan
  subst hmark hescaped hrunning
  rfl

theorem next_closing (h : Quoted q scan) (hq : q ≠ '\\') :
    scan.next q = { scan with quoteMark := none } := by
  rw [h.next_eq, DeclaratorScan.nextQuoted, h.unescaped, if_neg hq, if_pos rfl]
  rfl

theorem next_plain (h : Quoted q scan) (hc : c ≠ q) (hc' : c ≠ '\\') : scan.next c = scan := by
  rw [h.next_eq, DeclaratorScan.nextQuoted, h.unescaped, if_neg hc, if_neg hc']
  rfl

/-- A character inside quotes is read by itself. -/
theorem walk (h : Quoted q scan) (c : Char) (cs : Chars) : Walk scan (c :: cs) [c] cs := by
  refine Walk.start.char fun hnone => ?_
  rw [DeclaratorScan.after_nil, h.quoteMark] at hnone
  cases hnone

end Quoted

/-- Inside quotes a text leaves the scan as it is. -/
def Stays (q : Char) (w : Chars) : Prop :=
  ∀ (scan : DeclaratorScan) (cs : Chars), Quoted q scan →
    Walk scan (w ++ cs) w cs ∧ scan.after w = scan

namespace Stays

variable {q : Char} {w w' : Chars}

theorem nil : Stays q [] :=
  fun _ _ _ => ⟨.start, rfl⟩

theorem append (h : Stays q w) (h' : Stays q w') : Stays q (w ++ w') := by
  intro scan cs hquoted
  obtain ⟨hwalk, hafter⟩ := h scan (w' ++ cs) hquoted
  obtain ⟨hwalk', hafter'⟩ := h' scan cs hquoted
  rw [DeclaratorScan.after_append, hafter, List.append_assoc]
  refine ⟨hwalk.trans ?_, hafter'⟩
  rwa [hafter]

theorem plain (hc : c ≠ q) (hc' : c ≠ '\\') : Stays q [c] :=
  fun _ cs hquoted => ⟨hquoted.walk c cs, hquoted.next_plain hc hc'⟩

/-- The character behind a backslash is passed over. -/
theorem escaped (c : Char) : Stays q ['\\', c] := by
  intro scan cs hquoted
  have hslash : scan.next '\\' = { scan with escaped := true } := by
    rw [hquoted.next_eq, DeclaratorScan.nextQuoted, hquoted.unescaped]
    rfl
  constructor
  · refine (hquoted.walk '\\' (c :: cs)).char fun hnone => ?_
    rw [DeclaratorScan.after_cons, hslash, DeclaratorScan.after_nil, hquoted.quoteMark] at hnone
    cases hnone
  · rw [DeclaratorScan.after_cons, hslash]
    exact hquoted.next_escaped c

theorem tame (hq : Text.isQuoteMark q = true) (hw : ∀ c ∈ w, isTame c = true) : Stays q w := by
  induction w with
  | nil => exact nil
  | cons c w ih =>
    obtain ⟨hc, hw⟩ := List.forall_mem_cons.1 hw
    simp only [isTame, Bool.not_eq_true', Bool.or_eq_false_iff, beq_eq_false_iff_ne] at hc
    have hne : c ≠ q := by
      rintro rfl
      rw [hq] at hc
      cases hc.1
    exact (plain hne hc.2).append (ih hw)

end Stays

/-- **A quoted text ends for the scan where it ends for the grammar.** -/
theorem exists_of_stringEnd {q : Char} (hq : Text.isQuoteMark q = true)
    (hend : stringEnd q 0 cs = some rest) : ∃ w, cs = w ++ q :: rest ∧ Stays q w := by
  induction hn : cs.length using Nat.strongRecOn generalizing cs with
  | ind n ih =>
    subst hn
    -- what stands in front of the rest of the text leaves the scan as it is
    have hgo : ∀ w cs' : Chars, cs = w ++ cs' → w ≠ [] → Stays q w →
        stringEnd q 0 cs' = some rest → ∃ w, cs = w ++ q :: rest ∧ Stays q w := by
      rintro w cs' rfl hw hstays hend'
      have hlt : cs'.length < (w ++ cs').length := by
        have := List.length_pos_of_ne_nil hw
        rw [List.length_append]
        omega
      obtain ⟨w', hcs, hstays'⟩ := ih _ hlt hend' rfl
      exact ⟨w ++ w', by rw [List.append_assoc, ← hcs], hstays.append hstays'⟩
    cases cs with
    | nil => cases hend
    | cons c cs =>
      rw [stringEnd] at hend
      split at hend
      · next hc =>
        obtain rfl := Option.some.inj hend
        exact ⟨[], hc ▸ rfl, .nil⟩
      · next hc =>
        split at hend
        · split at hend
          · next n hescape =>
            obtain ⟨d, tail, behind, hcs, rfl, htail⟩ := exists_tail_of_escapeLength hescape
            obtain ⟨-, rfl⟩ := List.cons.inj hcs
            refine hgo (['\\', d] ++ tail) behind hcs (List.cons_ne_nil _ _) ?_ ?_
            · exact (Stays.escaped d).append (.tame hq htail)
            · exact (stringEnd_pending q (d :: tail) behind).symm.trans hend
          · cases hend
        · next hc' =>
          split at hend
          · cases hend
          · exact hgo [c] cs rfl (List.cons_ne_nil _ _) (.plain hc hc') hend

/-- From the opening to the closing quote mark. -/
theorem passes_quoted {q : Char} {w : Chars} (hq : Text.isQuoteMark q = true)
    (htemplate : q ≠ '\u0060') (hw : Stays q w) (rest : Chars) :
    Passes (q :: (w ++ q :: rest)) rest := by
  have hslash : q ≠ '\\' ∧ q ≠ '/' := by
    constructor
    all_goals
      rintro rfl
      exact absurd hq (by decide)
  refine ⟨q :: (w ++ [q]), by simp, fun scan hcalm _ _ => ?_⟩
  have hopen : scan.next q = { scan with quoteMark := some q }.keep q := by
    rw [DeclaratorScan.next_of_calm hcalm, DeclaratorScan.nextPlain, if_pos hq]
  rw [DeclaratorScan.keep_eq] at hopen
  have hquoted : Quoted q (scan.next q) := hopen ▸ ⟨rfl, hcalm.unescaped, hcalm.running⟩
  -- between the marks the scan stays as it is, so the second mark closes what the first one opens
  obtain ⟨hwalk, hafter⟩ := hw (scan.next q) (q :: rest) hquoted
  have hclose : scan.after (q :: (w ++ [q])) = { scan.next q with quoteMark := none } := by
    rw [DeclaratorScan.after_cons, DeclaratorScan.after_append, hafter]
    exact hquoted.next_closing hslash.1
  constructor
  · have hstart : Walk scan (q :: (w ++ q :: rest)) [q] (w ++ q :: rest) :=
      Walk.start.char fun _ => ⟨Moves.comment?_eq_none hslash.2, htemplate⟩
    have hend : Walk ((scan.next q).after w) (q :: rest) [q] rest :=
      hafter.symm ▸ hquoted.walk q rest
    exact hstart.trans (hwalk.trans hend)
  · rw [hclose, hopen]
    exact ⟨⟨rfl, hcalm.unescaped, hcalm.running⟩, (Int.add_zero _).symm, fun _ hin => hin⟩

/-- **Quoted texts.** -/
theorem goes_stringHere (cs : Chars) : Goes Passes cs (stringHere cs) := by
  unfold stringHere
  split
  · next c rest =>
    split
    · next hc =>
      have hmark : Text.isQuoteMark c = true ∧ c ≠ '\u0060' := by
        simp only [Bool.or_eq_true, decide_eq_true_eq] at hc
        rcases hc with rfl | rfl <;> decide
      intro behind hbehind
      obtain ⟨w, rfl, hstays⟩ := exists_of_stringEnd hmark.1 hbehind
      exact passes_quoted hmark.1 hmark.2 hstays behind
    · exact .none
  · exact .none

theorem goes_string (cs : Chars) : Goes Passes cs (string cs) :=
  .after (passes_skip cs) (goes_stringHere _)

/-! ### Numbers -/

theorem passes_digitsEnd (radix : ℕ) (cs : Chars) : Passes cs (digitsEnd radix cs) := by
  fun_induction digitsEnd radix cs with
  | case1 c cs hc ih =>
    have hline : Passes ('_' :: c :: cs) (c :: cs) := Moves.inert (by decide)
    exact Onward.trans (Onward.trans hline (Moves.inert (isInert_of_isDigitOf hc))) ih
  | case2 c cs hc => exact Onward.refl _
  | case3 c cs _ hc ih => exact Onward.trans (Moves.inert (isInert_of_isDigitOf hc)) ih
  | case4 c cs _ hc => exact Onward.refl _
  | case5 => exact Onward.refl _

theorem goes_digits (radix : ℕ) (cs : Chars) : Goes Passes cs (digits radix cs) := by
  unfold digits
  split
  · next c cs =>
    split
    · next hc =>
      exact .some (Onward.trans (Moves.inert (isInert_of_isDigitOf hc)) (passes_digitsEnd radix cs))
    · exact .none
  · exact .none

theorem passes_exponentEnd (cs : Chars) : Passes cs (exponentEnd cs) := by
  unfold exponentEnd
  split
  · next e rest =>
    split
    · next he =>
      have hletter : Passes (e :: rest) rest := by
        refine Moves.inert ?_
        simp only [Bool.or_eq_true, decide_eq_true_eq] at he
        rcases he with rfl | rfl <;> decide
      refine (Goes.after (Onward.trans hletter ?_) (goes_digits 10 _)).getD (Onward.refl _)
      split
      · exact Moves.inert (by decide)
      · exact Moves.inert (by decide)
      · exact Onward.refl _
    · exact Onward.refl _
  · exact Onward.refl _

theorem passes_bigEnd (cs : Chars) : Passes cs (bigEnd cs) := by
  unfold bigEnd
  split
  · exact Moves.inert (by decide)
  · exact Onward.refl _

theorem passes_decimalEnd (start cs : Chars) : Passes cs (decimalEnd start cs) := by
  unfold decimalEnd
  split
  · split
    · next rest _ =>
      have hpoint : Passes ('.' :: rest) rest := Moves.inert (by decide)
      exact Onward.trans ((Goes.after hpoint (goes_digits 10 rest)).getD hpoint)
        (passes_exponentEnd _)
    · dsimp only
      split
      · exact passes_bigEnd _
      · exact passes_exponentEnd _
  · exact passes_bigEnd _

/-- **Numbers.** -/
theorem goes_numberHere (cs : Chars) : Goes Passes cs (numberHere cs) := by
  unfold numberHere
  extract_lets plain marked
  have hplain : Goes Passes cs plain := by
    dsimp only [plain]
    split
    · next rest =>
      have hpoint : Passes ('.' :: rest) rest := Moves.inert (by decide)
      exact .after hpoint ((goes_digits 10 rest).mapOn passes_exponentEnd)
    · exact (goes_digits 10 cs).mapOn (passes_decimalEnd cs)
  have hmarked : ∀ (radix : ℕ) (rest : Chars), Passes cs rest →
      Goes Passes cs (marked radix rest) := by
    intro radix rest hrest
    dsimp only [marked]
    split
    · next behind hdigits =>
      exact .some (Onward.trans hrest
        (Onward.trans (goes_digits radix rest behind hdigits) (passes_bigEnd behind)))
    · exact hplain
  -- the letter behind a zero says the radix; without one the number is decimal
  have hletter : ∀ {c : Char} {rest : Chars}, isInert c = true → Passes ('0' :: c :: rest) rest :=
    fun hc => Onward.trans (Moves.inert (by decide)) (Moves.inert hc)
  split
  case h_7 => exact hplain
  all_goals exact hmarked _ _ (hletter (by decide))

/-! ### Regular expressions and templates -/

theorem exists_append_of_bodyFrom {place : Regex.Place} {body : Chars}
    (h : bodyFrom place cs = some (body, rest)) : ∃ front, cs = front ++ rest := by
  induction cs generalizing place body with
  | nil => cases h
  | cons c cs ih =>
    rw [bodyFrom] at h
    split at h
    · cases h
    · split at h
      · cases h
        exact ⟨[c], rfl⟩
      · split at h
        · next hbody =>
          cases h
          obtain ⟨front, rfl⟩ := ih hbody
          exact ⟨c :: front, rfl⟩
        · cases h

theorem exists_append_of_regexHere {token : RegexToken} (h : regexHere cs = some (token, rest)) :
    ∃ front, cs = front ++ rest := by
  unfold regexHere at h
  split at h
  · split at h
    · cases h
    · cases h
    · next body behind _ hbody =>
      obtain ⟨front, rfl⟩ := exists_append_of_bodyFrom hbody
      rw [List.span_eq_takeWhile_dropWhile] at h
      cases h
      refine ⟨'/' :: (front ++ behind.takeWhile isFlag), ?_⟩
      rw [List.cons_append, List.append_assoc, List.takeWhile_append_dropWhile]
  · cases h

/-- Regular expressions. -/
theorem goes_regexHere (cs : Chars) : Goes Passes cs (regexHere cs) := by
  rintro ⟨token, rest⟩ h
  obtain ⟨front, rfl⟩ := exists_append_of_regexHere h
  exact Moves.hidden (.regex h)

theorem exists_append_of_templateFrom {hole : Chars → Option Chars}
    (hhole : ∀ rest, Goes Passes rest (hole rest)) {filled filled' : Bool} {fuel : ℕ}
    (h : templateFrom hole filled fuel cs = some (filled', rest)) :
    ∃ front, cs = front ++ rest := by
  induction fuel generalizing filled cs with
  | zero => cases h
  | succ fuel ih =>
    cases cs with
    | nil => cases h
    | cons c cs =>
      -- what the template reads next leads behind its first character
      have hgo : ∀ cs', (∃ front, cs = front ++ cs') → ∀ filled,
          templateFrom hole filled fuel cs' = some (filled', rest) →
            ∃ front, c :: cs = front ++ rest := by
        rintro _ ⟨front, rfl⟩ filled hfrom
        obtain ⟨back, rfl⟩ := ih hfrom
        exact ⟨c :: (front ++ back), by rw [List.cons_append, List.append_assoc]⟩
      have hdrop : ∀ n, ∃ front, cs = front ++ cs.drop n := fun n =>
        ⟨cs.take n, (List.take_append_drop n cs).symm⟩
      rw [templateFrom] at h
      split at h
      · cases h
        exact ⟨[c], rfl⟩
      · split at h
        · split at h
          · exact hgo _ (hdrop _) _ h
          · cases h
        · split at h
          · split at h
            · next behind hbehind =>
              refine hgo behind ?_ _ h
              obtain ⟨inner, hinner, hmark⟩ := Option.bind_eq_some_iff.1 hbehind
              have hread : Passes (cs.drop 1) inner := hhole _ inner hinner
              have hclosed : Leaves inner behind :=
                goes_closing "\x7d" rfl (by decide) inner behind hmark
              obtain ⟨front, hfront, -⟩ := hread
              obtain ⟨back, hback, -⟩ := hclosed
              refine ⟨cs.take 1 ++ (front ++ back), ?_⟩
              rw [List.append_assoc, List.append_assoc, ← hback, ← hfront,
                List.take_append_drop]
            · cases h
          · exact hgo cs ⟨[], rfl⟩ _ h

/-- Templates. -/
theorem goes_templateHere {hole : Chars → Option Chars}
    (hhole : ∀ rest, Goes Passes rest (hole rest))
    (hhides : ∀ {cs rest : Chars} {filled : Bool}, templateHere hole cs = some (filled, rest) →
      Hides cs rest) (cs : Chars) : Goes Passes cs (templateHere hole cs) := by
  rintro ⟨filled, rest⟩ h
  have hfront : ∃ front, cs = front ++ rest := by
    unfold templateHere at h
    split at h
    · next cs =>
      obtain ⟨front, rfl⟩ := exists_append_of_templateFrom hhole h
      exact ⟨'\u0060' :: front, rfl⟩
    · cases h
  obtain ⟨front, rfl⟩ := hfront
  exact Moves.hidden (hhides h)

/-! ### Operators -/

theorem goes_operator (cs : Chars) : Goes Passes cs (operator cs) := by
  intro x h
  obtain ⟨text, htext, h⟩ := List.exists_of_findSome?_eq_some h
  obtain ⟨rest, hrest, rfl⟩ := Option.map_eq_some_iff.1 h
  refine Onward.trans (passes_skip cs) ?_
  -- only the operators for a division have a slash, as their first character
  have hmarks : ∀ m ∈ operatorMarks, m.toList.all isPlain = true ∨
      ∃ w ∈ [[], ['=']], m.toList = '/' :: w := by decide
  rcases hmarks text htext with hplain | ⟨w, hw, hslash⟩
  · exact moves_exactly hplain hrest
  · have hall : w.all isPlain = true := by
      rw [List.mem_pair] at hw
      rcases hw with rfl | rfl <;> decide
    obtain ⟨tail, hskip, hbehind⟩ := exists_of_exactly (hslash ▸ hrest)
    rw [hskip]
    exact Onward.trans (Moves.slash (hskip ▸ comment?_skip cs)) (moves_exactly hall hbehind)

theorem goes_operatorMark (text : String) (cs : Chars) :
    Goes Passes cs (operatorMark text cs) := by
  unfold operatorMark
  split
  · next m rest hoperator => exact .ite (.some (goes_operator cs _ hoperator)) .none
  · exact .none

/-! ### The ends of statements -/

theorem isSpace_of_isInlineSpace (h : isInlineSpace c = true) : isSpace c = true := by
  simp only [isInlineSpace, Bool.or_eq_true, beq_iff_eq] at h
  rw [isSpace, Text.inRanges_iff]
  rcases h with (((rfl | rfl) | rfl) | h) | h
  · exact ⟨(0x20, 0x20), by decide, by decide, by decide⟩
  · exact ⟨(0x9, 0xD), by decide, by decide, by decide⟩
  · exact ⟨(0x9, 0xD), by decide, by decide, by decide⟩
  · exact ⟨(0x9, 0xD), by decide, by omega, by omega⟩
  · exact ⟨(0x9, 0xD), by decide, by omega, by omega⟩

theorem goes_insertedEnd (afterExpression : Bool) (cs : Chars) :
    Goes Passes cs (insertedEnd afterExpression cs) := by
  have hblanks : ∀ cs, Passes cs (cs.dropWhile isInlineSpace) := by
    intro cs
    have hpassed := passes_inert (w := cs.takeWhile isInlineSpace) (fun c hc =>
      isInert_of_isSpace (isSpace_of_isInlineSpace (List.mem_takeWhile_imp hc)))
      (cs.dropWhile isInlineSpace)
    rwa [List.takeWhile_append_dropWhile] at hpassed
  have hfrom : ∀ fuel cs, Goes Passes cs (insertedFrom afterExpression fuel cs) := by
    intro fuel
    induction fuel with
    | zero => exact fun _ => .none
    | succ fuel ih =>
      intro cs
      rw [insertedFrom]
      have hblank := hblanks cs
      split
      · exact .some (Onward.refl cs)
      · next c rest hrest =>
        rw [hrest] at hblank
        refine .ite (.some (Onward.refl cs)) (.ite (.ite (.some (Onward.refl cs)) .none) ?_)
        split
        · next behind hcomment =>
          exact .after (Onward.trans hblank (moves_comment 0 hcomment)) (ih behind)
        · exact .none
  exact hfrom _ cs

/-- **The end of a statement.** -/
theorem goes_endStatement (afterExpression : Bool) (cs : Chars) :
    Goes Runs cs (endStatement afterExpression cs) := by
  unfold endStatement
  split
  · next rest hmark => exact .some (goes_semicolon cs rest hmark)
  · exact (goes_insertedEnd afterExpression cs).runs

theorem passes_endBlock (cs : Chars) : Passes cs (endBlock cs) :=
  onward_optional (goes_insertedEnd false)

end Source

end ModuleScaffold
